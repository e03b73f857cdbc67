import Mathlib.Data.List.Induction
import Mathlib.Data.Nat.Digits.Defs

/-!
# Positional numbers

The value of a row of digits with the highest one first, and of the characters that stand for it.
-/

namespace Digits

variable {b n k : Nat} {xs ys ds : List Nat} {f : Char → Option Nat}

/-- The value of digits, read from the left. -/
def value (b : Nat) (ds : List Nat) : Nat := ds.foldl (fun n d => b * n + d) 0

theorem foldl_eq_ofDigits (b n : Nat) (ds : List Nat) :
    ds.foldl (fun n d => b * n + d) n = n * b ^ ds.length + Nat.ofDigits b ds.reverse := by
  induction ds generalizing n with
  | nil => simp
  | cons d ds ih =>
    rw [List.foldl_cons, ih, List.reverse_cons, Nat.ofDigits_append, Nat.ofDigits_singleton,
      List.length_reverse, List.length_cons, Nat.pow_succ]
    ring

theorem value_eq_ofDigits (b : Nat) (ds : List Nat) : value b ds = Nat.ofDigits b ds.reverse := by
  rw [value, foldl_eq_ofDigits, Nat.zero_mul, Nat.zero_add]

theorem value_append : value b (xs ++ ys) = value b xs * b ^ ys.length + value b ys := by
  rw [value, List.foldl_append, foldl_eq_ofDigits, ← value_eq_ofDigits]
  rfl

theorem value_lt (hb : 1 < b) (h : ∀ d ∈ ds, d < b) : value b ds < b ^ ds.length := by
  rw [value_eq_ofDigits, ← List.length_reverse]
  exact Nat.ofDigits_lt_base_pow_length hb fun d hd => h d (List.mem_reverse.mp hd)

theorem value_replicate_zero (b k : Nat) : value b (List.replicate k 0) = 0 := by
  rw [value_eq_ofDigits, List.reverse_replicate, Nat.ofDigits_replicate_zero]

theorem value_lastDigits (b n k : Nat) :
    value b ((List.range k).reverse.map fun i => n / b ^ i % b) = n % b ^ k := by
  rw [value_eq_ofDigits, ← List.map_reverse, List.reverse_reverse]
  induction k with
  | zero => simp [Nat.mod_one]
  | succ k ih =>
    rw [List.range_succ, List.map_append, Nat.ofDigits_append, ih, List.map_singleton,
      Nat.ofDigits_singleton, List.length_map, List.length_range, Nat.mod_pow_succ]

theorem lastDigits_value (h : ∀ d ∈ ds, d < b) :
    ((List.range ds.length).reverse.map fun i => value b ds / b ^ i % b) = ds := by
  induction ds using List.reverseRecOn with
  | nil => rfl
  | append_singleton ds d ih =>
    have hd : d < b := h d (List.mem_append_right ds (List.mem_singleton_self d))
    have hvalue : value b (ds ++ [d]) = b * value b ds + d := by
      rw [value, List.foldl_append]
      rfl
    have hhigher (i : Nat) :
        (b * value b ds + d) / b ^ (i + 1) % b = value b ds / b ^ i % b := by
      rw [Nat.pow_succ', ← Nat.div_div_eq_div_mul, Nat.mul_add_div (by omega),
        Nat.div_eq_of_lt hd, Nat.add_zero]
    have hlowest : (b * value b ds + d) / b ^ 0 % b = d := by
      rw [Nat.pow_zero, Nat.div_one, Nat.mul_add_mod, Nat.mod_eq_of_lt hd]
    rw [hvalue, List.length_append, List.length_singleton, List.range_succ_eq_map,
      List.reverse_cons, List.map_append, ← List.map_reverse, List.map_map, List.map_singleton,
      hlowest]
    congr 1
    conv_rhs => rw [← ih fun d hd => h d (List.mem_append_left _ hd)]
    exact List.map_congr_left fun i _ => hhigher i

/-! ## Characters -/

/-- `f` reads the digits below `b`. -/
def Reads (b : Nat) (f : Char → Option Nat) : Prop := ∀ d < b, f d.digitChar = some d

theorem Reads.toDigits (hf : Reads b f) (hb : 1 < b) (n : Nat) :
    (∀ c ∈ Nat.toDigits b n, (f c).isSome) ∧ value b ((Nat.toDigits b n).filterMap f) = n := by
  induction n using Nat.strong_induction_on with
  | _ n ih =>
    rw [Nat.toDigits_eq_if hb]
    split
    · rename_i hlt
      simp [hf n hlt, value]
    · rename_i hge
      obtain ⟨hchars, hvalue⟩ := ih (n / b) (Nat.div_lt_self (by omega) hb)
      have hlast := hf (n % b) (Nat.mod_lt n (by omega))
      constructor
      · intro c hc
        rcases List.mem_append.mp hc with hc | hc
        · exact hchars c hc
        · rw [List.mem_singleton.mp hc, hlast]
          rfl
      · rw [List.filterMap_append, value_append, hvalue, List.filterMap_cons, hlast]
        simp only [List.filterMap_nil, List.length_singleton, Nat.pow_one, value, List.foldl_cons,
          List.foldl_nil, Nat.mul_zero, Nat.zero_add]
        exact Nat.div_add_mod' n b

theorem Reads.leftpad (hf : Reads b f) (hb : 1 < b) (k n : Nat) :
    (∀ c ∈ (Nat.toDigits b n).leftpad k '0', (f c).isSome) ∧
      value b (((Nat.toDigits b n).leftpad k '0').filterMap f) = n := by
  have hzero : f '0' = some 0 := hf 0 (by omega)
  obtain ⟨hchars, hvalue⟩ := hf.toDigits hb n
  unfold List.leftpad
  constructor
  · intro c hc
    rcases List.mem_append.mp hc with hc | hc
    · rw [List.eq_of_mem_replicate hc, hzero]
      rfl
    · exact hchars c hc
  · rw [List.filterMap_append, value_append, hvalue, List.filterMap_replicate_of_some hzero,
      value_replicate_zero, Nat.zero_mul, Nat.zero_add]

theorem length_leftpad_toDigits (hb : 1 < b) (hk : 0 < k) (hn : n < b ^ k) :
    ((Nat.toDigits b n).leftpad k '0').length = k := by
  have hle := (Nat.length_toDigits_le_iff hb hk).mpr hn
  rw [List.length_leftpad]
  omega

end Digits
