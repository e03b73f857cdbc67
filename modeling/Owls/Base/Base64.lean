import Mathlib.Data.List.Basic

/-!
# Base64

Groups of three bytes as four characters, padded at the end. The decoder takes the canonical texts
alone: the bits that the padding leaves over are zero.
-/

namespace Base64

def alphabet : List Char :=
  "ABCDEFGHIJKLMNOPQRSTUVWXYZabcdefghijklmnopqrstuvwxyz0123456789+/".toList

def digit (n : Nat) : Char := alphabet.getD n '='

def value? (c : Char) : Option Nat := alphabet.idxOf? c

def encode : List UInt8 → List Char
  | [] => []
  | [a] => [digit (a.toNat / 4), digit (a.toNat % 4 * 16), '=', '=']
  | [a, b] =>
    [digit (a.toNat / 4), digit (a.toNat % 4 * 16 + b.toNat / 16), digit (b.toNat % 16 * 4), '=']
  | a :: b :: c :: rest =>
    digit (a.toNat / 4) :: digit (a.toNat % 4 * 16 + b.toNat / 16) ::
      digit (b.toNat % 16 * 4 + c.toNat / 64) :: digit (c.toNat % 64) :: encode rest

/-- The last group, whose fourth character is a padding. -/
def decodeLast? (p q r : Char) : Option (List UInt8) := do
  let x ← value? p
  let y ← value? q
  if r = '=' then
    if y % 16 = 0 then some [.ofNat (x * 4 + y / 16)] else none
  else do
    let z ← value? r
    if z % 4 = 0 then some [.ofNat (x * 4 + y / 16), .ofNat (y % 16 * 16 + z / 4)] else none

def decode? : List Char → Option (List UInt8)
  | [] => some []
  | p :: q :: r :: s :: rest =>
    if s = '=' then if rest = [] then decodeLast? p q r else none
    else do
      let x ← value? p
      let y ← value? q
      let z ← value? r
      let w ← value? s
      let bytes ← decode? rest
      some (.ofNat (x * 4 + y / 16) :: .ofNat (y % 16 * 16 + z / 4) :: .ofNat (z % 4 * 64 + w) ::
        bytes)
  | _ => none

theorem value?_digit {n : Nat} (h : n < 64) : value? (digit n) = some n := by
  have hall : ∀ n ∈ List.range 64, value? (digit n) = some n := by decide +kernel
  exact hall n (List.mem_range.mpr h)

theorem digit_ne_pad {n : Nat} (h : n < 64) : digit n ≠ '=' := by
  have hnone : value? '=' = none := by decide +kernel
  intro hpad
  have hvalue := value?_digit h
  rw [hpad, hnone] at hvalue
  cases hvalue

section Groups

variable {a b c : Nat}

theorem first_inv (hb : b < 256) : a / 4 * 4 + (a % 4 * 16 + b / 16) / 16 = a := by omega

theorem second_inv (hb : b < 256) (hc : c < 256) :
    (a % 4 * 16 + b / 16) % 16 * 16 + (b % 16 * 4 + c / 64) / 4 = b := by omega

theorem third_inv (hc : c < 256) : (b % 16 * 4 + c / 64) % 4 * 64 + c % 64 = c := by omega

end Groups

theorem decodeLast?_one (a : UInt8) :
    decodeLast? (digit (a.toNat / 4)) (digit (a.toNat % 4 * 16)) '=' = some [a] := by
  have ha : a.toNat < 256 := a.toNat_lt
  have hfirst := first_inv (a := a.toNat) (b := 0) (by decide)
  have hleft : a.toNat % 4 * 16 % 16 = 0 := by omega
  rw [Nat.zero_div, Nat.add_zero] at hfirst
  simp only [decodeLast?, value?_digit (by omega : a.toNat / 4 < 64),
    value?_digit (by omega : a.toNat % 4 * 16 < 64), Option.bind_eq_bind, Option.bind_some, if_true,
    hleft, hfirst, UInt8.ofNat_toNat]

theorem decodeLast?_two (a b : UInt8) :
    decodeLast? (digit (a.toNat / 4)) (digit (a.toNat % 4 * 16 + b.toNat / 16))
      (digit (b.toNat % 16 * 4)) = some [a, b] := by
  have ha : a.toNat < 256 := a.toNat_lt
  have hb : b.toNat < 256 := b.toNat_lt
  have hthird : b.toNat % 16 * 4 < 64 := by omega
  have hfirst := first_inv (a := a.toNat) hb
  have hsecond := second_inv (a := a.toNat) (c := 0) hb (by decide)
  rw [Nat.zero_div, Nat.add_zero] at hsecond
  have hleft : b.toNat % 16 * 4 % 4 = 0 := by omega
  simp only [decodeLast?, value?_digit (by omega : a.toNat / 4 < 64),
    value?_digit (by omega : a.toNat % 4 * 16 + b.toNat / 16 < 64), value?_digit hthird,
    Option.bind_eq_bind, Option.bind_some, if_neg (digit_ne_pad hthird), if_true, hleft, hfirst,
    hsecond, UInt8.ofNat_toNat]

theorem decode?_encode (bytes : List UInt8) : decode? (encode bytes) = some bytes := by
  fun_induction encode bytes with
  | case1 => rfl
  | case2 a => exact decodeLast?_one a
  | case3 a b => exact decodeLast?_two a b
  | case4 a b c rest ih =>
    have ha : a.toNat < 256 := a.toNat_lt
    have hb : b.toNat < 256 := b.toNat_lt
    have hc : c.toNat < 256 := c.toNat_lt
    have hfourth : c.toNat % 64 < 64 := Nat.mod_lt _ (by decide)
    simp only [decode?, if_neg (digit_ne_pad hfourth),
      value?_digit (by omega : a.toNat / 4 < 64),
      value?_digit (by omega : a.toNat % 4 * 16 + b.toNat / 16 < 64),
      value?_digit (by omega : b.toNat % 16 * 4 + c.toNat / 64 < 64), value?_digit hfourth, ih,
      Option.bind_eq_bind, Option.bind_some, first_inv hb, second_inv hb hc, third_inv hc,
      UInt8.ofNat_toNat]

end Base64
