import Mathlib.Algebra.Group.Nat.Defs
import Mathlib.Data.List.Nodup

/-!
# Machine words

`UInt64` arithmetic as a C++ program sees it: a quotient or a remainder by zero traps, a
counting loop runs over words, and a number travels as its decimal digits.
-/

namespace Word

/-! ## Quotient and remainder -/

/-- `a / b`, and `none` for the trap. -/
def div? (a b : UInt64) : Option UInt64 := if b = 0 then none else some (a / b)

/-- `a % b`, and `none` for the trap. -/
def mod? (a b : UInt64) : Option UInt64 := if b = 0 then none else some (a % b)

@[simp] theorem mod?_eq_none {a b : UInt64} : mod? a b = none ↔ b = 0 := by simp [mod?]

theorem div?_of_ne_zero {a b : UInt64} (h : b ≠ 0) : div? a b = some (a / b) := if_neg h

theorem mod?_of_ne_zero {a b : UInt64} (h : b ≠ 0) : mod? a b = some (a % b) := if_neg h

theorem ne_zero_iff {a : UInt64} : a ≠ 0 ↔ 0 < a.toNat := by
  rw [Nat.pos_iff_ne_zero, ne_eq, ne_eq, not_iff_not, ← UInt64.toNat_inj]
  rfl

theorem toNat_add_of_lt {a b : UInt64} (h : a.toNat + b.toNat < 2 ^ 64) :
    (a + b).toNat = a.toNat + b.toNat := by
  rw [UInt64.toNat_add, Nat.mod_eq_of_lt h]

theorem toNat_mul_of_lt {a b : UInt64} (h : a.toNat * b.toNat < 2 ^ 64) :
    (a * b).toNat = a.toNat * b.toNat := by
  rw [UInt64.toNat_mul, Nat.mod_eq_of_lt h]

theorem toNat_sub_sub {a b c : UInt64} (h : b.toNat + c.toNat ≤ a.toNat) :
    (a - b - c).toNat = a.toNat - b.toNat - c.toNat := by
  have hfirst : (a - b).toNat = a.toNat - b.toNat :=
    UInt64.toNat_sub_of_le _ _ (UInt64.le_iff_toNat_le.mpr (by omega))
  rw [UInt64.toNat_sub_of_le _ _ (UInt64.le_iff_toNat_le.mpr (by omega)), hfirst]

theorem toNat_min (a b : UInt64) : (min a b).toNat = min a.toNat b.toNat := by
  have hmin : min a b = if a ≤ b then a else b := rfl
  rw [hmin]
  split <;> rename_i h <;> rw [UInt64.le_iff_toNat_le] at h <;> omega

/-! ## Counting loops -/

/-- The values of `n` in `for (n = lo; n < hi; n++)`. -/
def countUp (lo hi : UInt64) : List UInt64 :=
  if lo < hi then lo :: countUp (lo + 1) hi else []
termination_by hi.toNat - lo.toNat
decreasing_by
  rename_i h
  have hlt := UInt64.lt_iff_toNat_lt.mp h
  have hhi := hi.toNat_lt
  rw [toNat_add_of_lt (by simp; omega)]
  simp
  omega

private theorem succ_toNat {lo hi : UInt64} (h : lo < hi) : (lo + 1).toNat = lo.toNat + 1 := by
  have hlt := UInt64.lt_iff_toNat_lt.mp h
  have hhi := hi.toNat_lt
  rw [toNat_add_of_lt (by simp; omega)]
  rfl

theorem mem_countUp {lo hi n : UInt64} : n ∈ countUp lo hi ↔ lo ≤ n ∧ n < hi := by
  fun_induction countUp lo hi with
  | case1 lo h ih =>
    have hs := succ_toNat h
    rw [List.mem_cons, ih]
    simp only [UInt64.le_iff_toNat_le, UInt64.lt_iff_toNat_lt, ← UInt64.toNat_inj] at h ⊢
    omega
  | case2 lo h =>
    simp only [UInt64.le_iff_toNat_le, UInt64.lt_iff_toNat_lt, List.not_mem_nil,
      false_iff] at h ⊢
    omega

/-- `std::to_string`. -/
def toDecimal (n : UInt64) : String := n.toNat.repr

/-- One digit or more, and nothing else. -/
def isNumber (s : String) : Bool := s.toList ≠ [] && s.toList.all Char.isDigit

/-- `std::stoull` on digits, and `none` for `std::out_of_range`. -/
def ofDecimal? (s : String) : Option UInt64 :=
  let v := Nat.ofDigitChars 10 s.toList 0
  if v < UInt64.size then some (UInt64.ofNat v) else none

theorem isNumber_toDecimal (n : UInt64) : isNumber (toDecimal n) = true := by
  simp only [isNumber, toDecimal, Nat.toList_repr, Bool.and_eq_true, decide_eq_true_eq,
    List.all_eq_true]
  exact ⟨Nat.toDigits_ne_nil, fun c hc => Nat.isDigit_of_mem_toDigits (by decide) (by decide) hc⟩

theorem ofDecimal?_toDecimal (n : UInt64) : ofDecimal? (toDecimal n) = some n := by
  simp only [ofDecimal?, toDecimal, Nat.toList_repr, Nat.ofDigitChars_ten_toDigits]
  rw [if_pos n.toNat_lt_size, UInt64.ofNat_toNat]

end Word
