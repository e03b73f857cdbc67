import Mathlib.Data.List.DropRight
import Owls.Base.Prefixes
import Owls.Bindings
import Owls.Serials

/-!
# Ranges of addresses

`CIDR::IpInRange`, with the two routines that compare the first bits of addresses through raw
pointers to them.
-/

open Prefixes

namespace Owls.CIDR

open Router (stringTokenizer stringTokenizer_intercalate)
open Utils (isSpace hexDigit? IsHex)

inductive Family
  | ipv4
  | ipv6
deriving DecidableEq

def Family.length : Family → Nat
  | .ipv4 => 4
  | .ipv6 => 16

structure IPAddress where
  family : Family
  bytes : Vector (BitVec 8) family.length
deriving DecidableEq

structure Poco where
  tryParse : String → Option IPAddress
  le : IPAddress → IPAddress → Bool
  eq : IPAddress → IPAddress → Bool
  /-- The memory that follows the bytes of an address. -/
  behind : IPAddress → Bytes

variable (poco : Poco)

/-- What the pointer `addr()` leads to. -/
def Poco.addr (a : IPAddress) : Bytes := fun i =>
  if h : i < a.family.length then a.bytes.get ⟨i, h⟩ else poco.behind a (i - a.family.length)

/-! ## The code -/

/-- More than 32 bits shift by a negative number, which is undefined. -/
def cidrMatch (addr net : Bytes) (bits : UInt8) : Bool :=
  if bits = 0 then true
  else (word addr 0 ^^^ word net 0) &&& htonl (0xFFFFFFFF#32 <<< (32 - bits.toNat)) = 0

def cidr6Match (a n : Bytes) (bits : UInt8) : Bool :=
  let bitsWhole := bits.toNat >>> 5
  let bitsIncomplete := bits.toNat &&& 0x1F
  if bitsWhole ≠ 0 && !memcmpEq a n (bitsWhole <<< 2) then false
  else if bitsIncomplete ≠ 0 then
    let mask := htonl (0xFFFFFFFF#32 <<< (32 - bitsIncomplete))
    (word a bitsWhole ^^^ word n bitsWhole) &&& mask = 0
  else true

/-- `std::strtol` in base 10, and `none` where it reads nothing. -/
def strtol (cs : List Char) : Option Int :=
  let cs := cs.dropWhile isSpace
  let negative := cs.head? = some '-'
  let cs := if cs.head? = some '-' ∨ cs.head? = some '+' then cs.tail else cs
  let digits := cs.takeWhile Char.isDigit
  let n := Nat.ofDigitChars 10 digits 0
  if digits = [] then none
  else some (if negative then max (-n) (-2 ^ 63) else min n (2 ^ 63 - 1))

def convertStringToLong (s : String) : Option UInt64 := (strtol s.toList).map UInt64.ofInt

-- `TOK_TRIM`.
def trim (token : String) : String :=
  .ofList ((token.toList.dropWhile isSpace).rdropWhile isSpace)

/-- `none`: there is no token. -/
def cidrIPinRange (ip : IPAddress) (range : String) : Option Bool :=
  match (stringTokenizer range '/').map trim with
  | [] => none
  | first :: rest =>
    match poco.tryParse first, rest with
    | some rangeIP, [second] =>
      match convertStringToLong second with
      | some maskLength =>
        match rangeIP.family with
        | .ipv4 => some (cidrMatch (poco.addr rangeIP) (poco.addr ip) maskLength.toUInt8)
        | .ipv6 => some (cidr6Match (poco.addr rangeIP) (poco.addr ip) maskLength.toUInt8)
      | none => some false
    | _, _ => some false

/-- `std::any_of`, which stops at the first: `none` where a text before it does not parse. -/
def anyElement (target : IPAddress) : List String → Option Bool
  | [] => some false
  | element :: rest =>
    match poco.tryParse element with
    | none => none
    | some a => if poco.eq a target then some true else anyElement target rest

/-- `none` where `IPAddress::parse` throws. -/
def ipInRange (target : IPAddress) (r : String) : Option Bool :=
  match stringTokenizer r '-' with
  | [first, second] => do
    let a ← poco.tryParse first
    let b ← poco.tryParse second
    if target.family ≠ a.family then some false else some (poco.le a target && poco.le target b)
  | _ =>
    let tokens := stringTokenizer r ','
    if 1 < tokens.length then anyElement poco target tokens
    else if (stringTokenizer r '/').length = 2 then cidrIPinRange poco target r
    else (poco.tryParse r).map fun a => poco.eq a target

/-! ## What a range is for -/

def IPAddress.octets (a : IPAddress) : Bytes := fun i => (a.bytes[i]?).getD 0

/-- The address is of the family of the range, and has its first bits. -/
def InRange (target a : IPAddress) (m : Nat) : Prop :=
  target.family = a.family ∧ Agree m target.octets a.octets

variable {poco} {p q : Bytes} {a target : IPAddress} {bits : UInt8} {m : Nat} {text len : String}
  {c : Char}

/-! ## The two routines -/

theorem cidrMatch_iff (h : bits.toNat ≤ 32) : cidrMatch p q bits = true ↔ Agree bits.toNat p q := by
  unfold cidrMatch
  split
  · rename_i hzero
    rw [hzero]
    exact iff_of_true rfl fun i hi => absurd hi (Nat.not_lt_zero i)
  · rw [decide_eq_true_eq]
    exact masked_iff_agree h

theorem cidr6Match_iff : cidr6Match p q bits = true ↔ Agree bits.toNat p q := by
  have hwhole : bits.toNat >>> 5 = bits.toNat / 32 := Nat.shiftRight_eq_div_pow _ 5
  have hincomplete : bits.toNat &&& 0x1F = bits.toNat % 32 := Nat.and_two_pow_sub_one_eq_mod _ 5
  have hbytes : (bits.toNat / 32) <<< 2 = 4 * (bits.toNat / 32) := by
    rw [Nat.shiftLeft_eq]
    omega
  have hbits : 32 * (bits.toNat / 32) + bits.toNat % 32 = bits.toNat := Nat.div_add_mod _ 32
  have hle : bits.toNat % 32 ≤ 32 := by omega
  rw [← hbits, ← words_iff_agree hle]
  simp only [cidr6Match, hwhole, hincomplete, hbytes]
  generalize bits.toNat / 32 = w
  generalize bits.toNat % 32 = n at hle
  cases hmem : memcmpEq p q (4 * w) with
  | false =>
    have hw : w ≠ 0 := by
      rintro rfl
      cases hmem
    simp [hw]
  | true =>
    simp only [Bool.not_true, Bool.and_false, Bool.false_eq_true, if_false, true_and]
    by_cases hzero : n = 0
    · rw [if_neg (not_not.mpr hzero)]
      exact iff_of_true rfl ((masked_eq_zero_iff hle).mpr fun i hi => by omega)
    · rw [if_pos hzero, decide_eq_true_eq]

/-! ## The text of a range -/

def IsAddressChar (c : Char) : Prop := (hexDigit? c).isSome ∨ c = '.' ∨ c = ':'

instance : DecidablePred IsAddressChar := fun _ => inferInstanceAs (Decidable (_ ∨ _))

theorem IsAddressChar.not_space (h : IsAddressChar c) : isSpace c = false := by
  rcases h with h | rfl | rfl
  · exact Utils.isSpace_of_hex h
  · rfl
  · rfl

theorem isHex_of_isNumber (h : Word.isNumber len = true) : IsHex len.toList := by
  intro c hc
  have hdigit : c.isDigit = true := by
    simp only [Word.isNumber, Bool.and_eq_true, List.all_eq_true] at h
    exact h.2 c hc
  have hrange : '0' ≤ c ∧ c ≤ '9' := by simpa [Char.isDigit, Char.le_def] using hdigit
  rw [hexDigit?, if_pos hrange]
  rfl

theorem strtol_number (h : Word.isNumber len = true)
    (hlt : Nat.ofDigitChars 10 len.toList 0 < 2 ^ 63) :
    strtol len.toList = some (Nat.ofDigitChars 10 len.toList 0 : Int) := by
  have hhex := isHex_of_isNumber h
  obtain ⟨hminus, hplus, -⟩ := Utils.not_hex_of_mem hhex
  obtain ⟨hne, hdigits⟩ : len.toList ≠ [] ∧ ∀ c ∈ len.toList, c.isDigit = true := by
    simpa [Word.isNumber] using h
  have hsign : len.toList.head? ≠ some '-' ∧ len.toList.head? ≠ some '+' :=
    ⟨fun hhead => hminus (List.mem_of_head? hhead), fun hhead => hplus (List.mem_of_head? hhead)⟩
  rw [strtol, Utils.dropWhile_isSpace hhex, if_neg (not_or.mpr hsign),
    List.takeWhile_eq_self_iff.mpr hdigits, if_neg hne, if_neg (by simpa using hsign.1),
    min_eq_left (by omega)]

theorem trim_eq_self (h : ∀ c ∈ text.toList, isSpace c = false) : trim text = text := by
  have hdrop : text.toList.dropWhile isSpace = text.toList := by
    refine List.dropWhile_eq_self_iff.mpr fun hl => ?_
    simp [h _ (List.getElem_mem hl)]
  have hrdrop : text.toList.rdropWhile isSpace = text.toList := by
    refine List.rdropWhile_eq_self_iff.mpr fun hl => ?_
    simp [h _ (List.getLast_mem hl)]
  rw [trim, hdrop, hrdrop, String.ofList_toList]

theorem convertStringToLong_number (h : Word.isNumber len = true)
    (hlt : Nat.ofDigitChars 10 len.toList 0 < 256) :
    ∃ maskLength, convertStringToLong len = some maskLength ∧
      maskLength.toUInt8.toNat = Nat.ofDigitChars 10 len.toList 0 := by
  refine ⟨_, by rw [convertStringToLong, strtol_number h (by omega), Option.map_some], ?_⟩
  rw [UInt64.ofInt, Int.emod_eq_of_lt (by omega) (by omega), Int.toNat_natCast,
    UInt64.toNat_toUInt8, UInt64.toNat_ofNat_of_lt' (by rw [UInt64.size]; omega)]
  omega

/-- The range as it is written, with no blank and no other separator in it. -/
structure Written (text len : String) : Prop where
  address : ∀ c ∈ text.toList, IsAddressChar c
  length : Word.isNumber len = true

theorem Written.not_mem (h : Written text len) {sep : Char} (hsep : ¬ IsAddressChar sep) :
    sep ∉ text.toList ∧ sep ∉ len.toList :=
  ⟨fun hmem => hsep (h.address sep hmem),
    fun hmem => hsep (.inl (isHex_of_isNumber h.length sep hmem))⟩

theorem toList_range (text len : String) :
    (text ++ "/" ++ len).toList = text.toList ++ '/' :: len.toList := by
  have hslash : "/".toList = ['/'] := by decide
  rw [String.toList_append, String.toList_append, hslash, List.append_assoc, List.singleton_append]

theorem range_ne_empty (text len : String) : text ++ "/" ++ len ≠ "" := by
  intro h
  have hlist := congrArg String.toList h
  rw [toList_range] at hlist
  exact List.append_ne_nil_of_right_ne_nil _ (List.cons_ne_nil _ _) hlist

theorem Written.tokens (h : Written text len) :
    stringTokenizer (text ++ "/" ++ len) '/' = [text, len] := by
  have hslash : ¬ IsAddressChar '/' := by decide
  obtain ⟨htext, hlen⟩ := h.not_mem hslash
  have hpieces : (text ++ "/" ++ len).toList = ['/'].intercalate ([text, len].map String.toList) := by
    rw [toList_range, List.map_cons, List.map_singleton, List.intercalate_cons_cons,
      List.intercalate_singleton, List.append_assoc, List.singleton_append]
  refine stringTokenizer_intercalate '/' [text, len] ?_ (List.cons_ne_nil _ _)
    (range_ne_empty text len) hpieces
  intro item hitem
  rcases List.mem_pair.mp hitem with rfl | rfl
  · exact htext
  · exact hlen

theorem Written.whole (h : Written text len) {sep : Char} (hsep : ¬ IsAddressChar sep)
    (hslash : sep ≠ '/') :
    stringTokenizer (text ++ "/" ++ len) sep = [text ++ "/" ++ len] := by
  obtain ⟨htext, hlen⟩ := h.not_mem hsep
  refine stringTokenizer_intercalate sep [text ++ "/" ++ len] ?_ (List.cons_ne_nil _ _)
    (range_ne_empty text len) (by simp)
  intro item hitem
  rw [List.mem_singleton.mp hitem, toList_range, List.mem_append, List.mem_cons]
  exact not_or.mpr ⟨htext, not_or.mpr ⟨hslash, hlen⟩⟩

theorem ipInRange_written (h : Written text len) :
    ipInRange poco target (text ++ "/" ++ len) = cidrIPinRange poco target (text ++ "/" ++ len) := by
  have hdash : ¬ IsAddressChar '-' := by decide
  have hcomma : ¬ IsAddressChar ',' := by decide
  rw [ipInRange, h.whole hdash (by decide), h.whole hcomma (by decide), h.tokens]
  rfl

theorem cidrIPinRange_written (target : IPAddress) (h : Written text len)
    (hparse : poco.tryParse text = some a)
    (hm : Nat.ofDigitChars 10 len.toList 0 ≤ 8 * a.family.length) :
    ∃ answer, cidrIPinRange poco target (text ++ "/" ++ len) = some answer ∧
      (answer = true ↔
        Agree (Nat.ofDigitChars 10 len.toList 0) (poco.addr a) (poco.addr target)) := by
  have hspace : ∀ c ∈ len.toList, isSpace c = false := fun c hc =>
    Utils.isSpace_of_hex (isHex_of_isNumber h.length c hc)
  have hlength : 8 * a.family.length ≤ 128 := by cases a.family <;> decide
  obtain ⟨maskLength, hconvert, hbits⟩ := convertStringToLong_number h.length (by omega)
  rw [cidrIPinRange, h.tokens, List.map_cons, List.map_singleton,
    trim_eq_self fun c hc => (h.address c hc).not_space, trim_eq_self hspace]
  simp only [hparse, hconvert]
  rw [← hbits] at hm ⊢
  cases hfamily : a.family with
  | ipv4 =>
    rw [hfamily] at hm
    exact ⟨_, rfl, cidrMatch_iff hm⟩
  | ipv6 => exact ⟨_, rfl, cidr6Match_iff⟩

/-! ## The answer -/

theorem bit_addr (a : IPAddress) {i : Nat} (hi : i < 8 * a.family.length) :
    bit (poco.addr a) i = bit a.octets i := by
  have hbyte : i / 8 < a.family.length := by omega
  have hoctet : poco.addr a (i / 8) = a.octets (i / 8) := by
    rw [Poco.addr, dif_pos hbyte, IPAddress.octets, Vector.getElem?_eq_getElem hbyte]
    rfl
  rw [bit, bit, hoctet]

theorem agree_addr (hfamily : target.family = a.family) (hm : m ≤ 8 * a.family.length) :
    Agree m (poco.addr a) (poco.addr target) ↔ Agree m target.octets a.octets := by
  have hbits (i : Nat) (hi : i < m) : bit (poco.addr a) i = bit a.octets i ∧
      bit (poco.addr target) i = bit target.octets i := by
    have hlt : i < 8 * a.family.length := by omega
    exact ⟨bit_addr a hlt, bit_addr target (hfamily ▸ hlt)⟩
  constructor
  · intro h i hi
    obtain ⟨ha, ht⟩ := hbits i hi
    rw [← ha, ← ht, h i hi]
  · intro h i hi
    obtain ⟨ha, ht⟩ := hbits i hi
    rw [ha, ht, h i hi]

/-- A target of the other family is answered from the memory at its address. -/
theorem ipInRange_iff (poco : Poco) (target a : IPAddress) (text len : String)
    (hwritten : Written text len) (hparse : poco.tryParse text = some a)
    (hm : Nat.ofDigitChars 10 len.toList 0 ≤ 8 * a.family.length) :
    (ipInRange poco target (text ++ "/" ++ len) = some true ↔
        InRange target a (Nat.ofDigitChars 10 len.toList 0)) ↔
      (target.family = a.family ∨
        ¬ Agree (Nat.ofDigitChars 10 len.toList 0) (poco.addr a) (poco.addr target)) := by
  obtain ⟨answer, hanswer, hiff⟩ := cidrIPinRange_written target hwritten hparse hm
  rw [ipInRange_written hwritten, hanswer, Option.some_inj, hiff, InRange]
  by_cases hfamily : target.family = a.family
  · simp only [hfamily, true_or, true_and, iff_true]
    exact agree_addr hfamily hm
  · simp only [hfamily, false_or, false_and, iff_false]

/-! ## One range -/

def octets4 (a b c d : BitVec 8) : IPAddress := ⟨.ipv4, #v[a, b, c, d]⟩

/-- The address of 16 bytes that begins with these four, all others zero. -/
def octets6 (a b c d : BitVec 8) : IPAddress :=
  ⟨.ipv6, #v[a, b, c, d, 0, 0, 0, 0, 0, 0, 0, 0, 0, 0, 0, 0]⟩

def onePoco : Poco where
  tryParse text := if text = "10.0.0.0" then some (octets4 10 0 0 0) else none
  le a b := a.family = b.family && a.bytes.toList.map (·.toNat) ≤ b.bytes.toList.map (·.toNat)
  eq a b := a = b
  behind _ _ := 0

theorem written_ten : Written "10.0.0.0" "8" where
  address c hc := by
    have hall : "10.0.0.0".toList.all (fun c => decide (IsAddressChar c)) = true := by decide
    exact of_decide_eq_true (List.all_eq_true.mp hall c hc)
  length := by decide

theorem ipInRange_iff_ten :
    (ipInRange onePoco (octets4 10 1 2 3) ("10.0.0.0" ++ "/" ++ "8") = some true ↔
        InRange (octets4 10 1 2 3) (octets4 10 0 0 0) 8) ↔
      ((octets4 10 1 2 3).family = (octets4 10 0 0 0).family ∨
        ¬ Agree 8 (onePoco.addr (octets4 10 0 0 0)) (onePoco.addr (octets4 10 1 2 3))) :=
  ipInRange_iff onePoco (octets4 10 1 2 3) (octets4 10 0 0 0) "10.0.0.0" "8" written_ten rfl
    (by decide)

/-- The first byte of the IPv6 address is that of the range. -/
theorem other_family_accepted :
    ¬ ∀ (poco : Poco) (target a : IPAddress) (text len : String), Written text len →
      poco.tryParse text = some a →
      Nat.ofDigitChars 10 len.toList 0 ≤ 8 * a.family.length →
      (ipInRange poco target (text ++ "/" ++ len) = some true ↔
        InRange target a (Nat.ofDigitChars 10 len.toList 0)) := by
  intro h
  have hiff := h onePoco (octets6 10 0 0 0) (octets4 10 0 0 0) "10.0.0.0" "8" written_ten rfl
    (by decide)
  have haccepted : ipInRange onePoco (octets6 10 0 0 0) ("10.0.0.0" ++ "/" ++ "8") = some true := by
    decide +kernel
  exact absurd (hiff.mp haccepted).1 (by decide)

end Owls.CIDR
