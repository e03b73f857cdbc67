import Mathlib.Tactic.Common

/-!
# Prefixes of bits

Bytes in memory as a row of bits, the highest of each byte first, and what the masked words of a
machine that keeps the low byte first say about the first bits of two rows.
-/

namespace Prefixes

/-- The memory from a pointer on. -/
abbrev Bytes := Nat → BitVec 8

def bit (p : Bytes) (i : Nat) : Bool := (p (i / 8)).getMsbD (i % 8)

def Agree (n : Nat) (p q : Bytes) : Prop := ∀ i < n, bit p i = bit q i

def fourBytes (b : Bytes) : BitVec 32 := b 3 ++ b 2 ++ b 1 ++ b 0

/-- The word at an index. -/
def word (p : Bytes) (k : Nat) : BitVec 32 := fourBytes fun j => p (4 * k + j)

def htonl (x : BitVec 32) : BitVec 32 := fourBytes fun j => x.extractLsb' (8 * (3 - j)) 8

def memcmpEq (p q : Bytes) (c : Nat) : Bool := (List.range c).all fun j => p j == q j

variable {b p q : Bytes} {n m k c i j : Nat}

/-! ## Words -/

theorem getLsbD_fourBytes (h : j < 32) : (fourBytes b).getLsbD j = (b (j / 8)).getLsbD (j % 8) := by
  simp only [fourBytes, BitVec.getLsbD_append]
  split_ifs
  · obtain ⟨hdiv, hmod⟩ : j / 8 = 0 ∧ j % 8 = j := by omega
    rw [hdiv, hmod]
  · obtain ⟨hdiv, hmod⟩ : j / 8 = 1 ∧ j % 8 = j - 8 := by omega
    rw [hdiv, hmod]
  · obtain ⟨hdiv, hmod⟩ : j / 8 = 2 ∧ j % 8 = j - 8 - 8 := by omega
    rw [hdiv, hmod]
  · obtain ⟨hdiv, hmod⟩ : j / 8 = 3 ∧ j % 8 = j - 8 - 8 - 8 := by omega
    rw [hdiv, hmod]

/-- Where a word has the bit of the memory that is at a place. -/
def place (i : Nat) : Nat := 8 * (i / 8) + (7 - i % 8)

theorem place_place (i : Nat) : place (place i) = i := by
  unfold place
  omega

theorem place_lt (h : i < 32) : place i < 32 := by
  unfold place
  omega

theorem getLsbD_word (h : i < 32) : (word p k).getLsbD (place i) = bit p (32 * k + i) := by
  rw [word, getLsbD_fourBytes (place_lt h), bit, BitVec.getMsbD_eq_getLsbD]
  have hplace : place i / 8 = i / 8 ∧ place i % 8 = 7 - i % 8 := by
    unfold place
    omega
  have hbit : (32 * k + i) / 8 = 4 * k + i / 8 ∧ (32 * k + i) % 8 = i % 8 := by omega
  have hlt : i % 8 < 8 := by omega
  rw [hplace.1, hplace.2, hbit.1, hbit.2, decide_eq_true hlt, Bool.true_and]

theorem getLsbD_htonl {x : BitVec 32} (h : i < 32) :
    (htonl x).getLsbD (place i) = x.getMsbD i := by
  rw [htonl, getLsbD_fourBytes (place_lt h), BitVec.getMsbD_eq_getLsbD]
  have hplace : place i / 8 = i / 8 ∧ place i % 8 = 7 - i % 8 := by
    unfold place
    omega
  have hlt : 7 - i % 8 < 8 := by omega
  have hsum : 8 * (3 - i / 8) + (7 - i % 8) = 31 - i := by omega
  rw [hplace.1, hplace.2, BitVec.getLsbD_extractLsb', decide_eq_true hlt, decide_eq_true h, hsum]

theorem getLsbD_mask (h : i < 32) (hn : n ≤ 32) :
    (htonl (0xFFFFFFFF#32 <<< (32 - n))).getLsbD (place i) = decide (i < n) := by
  have hones : (0xFFFFFFFF#32) = BitVec.allOnes 32 := by decide
  rw [getLsbD_htonl h, BitVec.getMsbD_eq_getLsbD, hones, BitVec.getLsbD_shiftLeft,
    BitVec.getLsbD_allOnes, Bool.eq_iff_iff]
  simp only [Bool.and_eq_true, Bool.not_eq_true', decide_eq_true_eq, decide_eq_false_iff_not]
  omega

theorem masked_eq_zero_iff (hn : n ≤ 32) :
    (word p k ^^^ word q k) &&& htonl (0xFFFFFFFF#32 <<< (32 - n)) = 0 ↔
      ∀ i < n, bit p (32 * k + i) = bit q (32 * k + i) := by
  constructor
  · intro h i hi
    have hbit := congrArg (·.getLsbD (place i)) h
    have hlt : i < 32 := by omega
    simp only [BitVec.getLsbD_and, BitVec.getLsbD_xor, getLsbD_word hlt, getLsbD_mask hlt hn, hi,
      decide_true, Bool.and_true, BitVec.ofNat_eq_ofNat, BitVec.getLsbD_zero] at hbit
    simpa using hbit
  · intro h
    apply BitVec.eq_of_getLsbD_eq
    intro j hj
    rw [← place_place j]
    have hlt := place_lt hj
    rw [BitVec.getLsbD_and, BitVec.getLsbD_xor, getLsbD_word hlt, getLsbD_word hlt,
      getLsbD_mask hlt hn]
    by_cases hi : place j < n
    · rw [h _ hi]
      simp
    · simp [hi]

/-! ## Prefixes -/

theorem agree_add : Agree (m + n) p q ↔ Agree m p q ∧ ∀ i < n, bit p (m + i) = bit q (m + i) := by
  constructor
  · exact fun h => ⟨fun i hi => h i (by omega), fun i hi => h (m + i) (by omega)⟩
  · rintro ⟨hfirst, hrest⟩ i hi
    by_cases hm : i < m
    · exact hfirst i hm
    · obtain ⟨j, rfl⟩ := Nat.exists_eq_add_of_le (by omega : m ≤ i)
      exact hrest j (by omega)

theorem memcmpEq_iff : memcmpEq p q c = true ↔ Agree (8 * c) p q := by
  simp only [memcmpEq, List.all_eq_true, List.mem_range, beq_iff_eq]
  constructor
  · intro h i hi
    rw [bit, bit, h (i / 8) (by omega)]
  · intro h j hj
    apply BitVec.eq_of_getMsbD_eq
    intro i hi
    have hbit := h (8 * j + i) (by omega)
    rwa [bit, bit, (by omega : (8 * j + i) / 8 = j), (by omega : (8 * j + i) % 8 = i)] at hbit

theorem masked_iff_agree (hn : n ≤ 32) :
    (word p 0 ^^^ word q 0) &&& htonl (0xFFFFFFFF#32 <<< (32 - n)) = 0 ↔ Agree n p q := by
  rw [masked_eq_zero_iff hn]
  simp only [Nat.mul_zero, Nat.zero_add, Agree]

theorem words_iff_agree (hn : n ≤ 32) :
    (memcmpEq p q (4 * k) = true ∧
        (word p k ^^^ word q k) &&& htonl (0xFFFFFFFF#32 <<< (32 - n)) = 0) ↔
      Agree (32 * k + n) p q := by
  have hbytes : 8 * (4 * k) = 32 * k := by omega
  rw [agree_add, memcmpEq_iff, masked_eq_zero_iff hn, hbytes]

end Prefixes
