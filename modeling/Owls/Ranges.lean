import Owls.Cidr

/-!
# Validated ranges

`CIDR::ValidateRange`, and `CIDR::IpInRange` once more, with each statement that may throw or be
undefined checked before it is run.
-/

open Prefixes

namespace Owls.CIDR

open Router (stringTokenizer)
open Utils (isSpace)

variable (poco : Poco)

/-! ## The code -/

/-- The low 32 bits of what `std::strtol` reads. -/
def atoi (s : String) : Int := ((strtol s.toList).getD 0).bmod (2 ^ 32)

/-- A variable that no text is parsed into is the IPv4 address of zeros. -/
def familyOf (a : Option IPAddress) : Family := (a.map IPAddress.family).getD .ipv4

/-- `!tryParse(first, a) && tryParse(second, b)`: the second half is read only where the first is
no address. -/
def validateHalves (first second : String) : Bool :=
  let a := poco.tryParse first
  let b := if a.isNone then poco.tryParse second else none
  if a.isNone && b.isSome then false else familyOf a = familyOf b

def validateRange (r : String) : Bool :=
  match stringTokenizer r '-' with
  | [first, second] => validateHalves poco first second
  | _ =>
    let tokens := stringTokenizer r ','
    if 1 < tokens.length then tokens.all fun a => (poco.tryParse a).isSome
    else
      match stringTokenizer r '/' with
      | [network, mask] =>
        if (poco.tryParse network).isNone then false
        else if atoi mask = 0 then false
        else true
      | _ => (poco.tryParse r).isSome

def validateIpRanges (ranges : List String) : Bool := ranges.all (validateRange poco)

/-- What ends a call of `IpInRange`, or leaves it undefined. -/
inductive Fault
  | exception
  | negativeShift
  | beyondAddress
deriving DecidableEq

namespace Checked

def parse (s : String) : Except Fault IPAddress :=
  match poco.tryParse s with
  | some a => .ok a
  | none => .error .exception

def shiftLeft (x : BitVec 32) (n : Int) : Except Fault (BitVec 32) :=
  if n < 0 then .error .negativeShift else .ok (x <<< n.toNat)

/-- An address has four words. -/
def wordAt (a : Bytes) (i : Nat) : Except Fault (BitVec 32) :=
  if i < 4 then .ok (word a i) else .error .beyondAddress

def memcmp (a n : Bytes) (count : Nat) : Except Fault Bool :=
  if count ≤ 16 then .ok (memcmpEq a n count) else .error .beyondAddress

def cidrMatch (addr net : Bytes) (bits : UInt8) : Except Fault Bool :=
  if bits = 0 then .ok true
  else do
    let mask ← shiftLeft 0xFFFFFFFF#32 (32 - bits.toNat)
    .ok ((word addr 0 ^^^ word net 0) &&& htonl mask = 0)

def cidr6Match (a n : Bytes) (bits : UInt8) : Except Fault Bool := do
  let bitsWhole := bits.toNat >>> 5
  let bitsIncomplete := bits.toNat &&& 0x1F
  let equal ← if bitsWhole ≠ 0 then memcmp a n (bitsWhole <<< 2) else .ok true
  if !equal then .ok false
  else if bitsIncomplete ≠ 0 then do
    let mask ← shiftLeft 0xFFFFFFFF#32 (32 - bitsIncomplete)
    let x ← wordAt a bitsWhole
    let y ← wordAt n bitsWhole
    .ok ((x ^^^ y) &&& htonl mask = 0)
  else .ok true

def cidrIPinRange (ip : IPAddress) (range : String) : Except Fault Bool :=
  match (stringTokenizer range '/').map trim with
  | [] => .error .exception
  | first :: rest =>
    match poco.tryParse first, rest with
    | some rangeIP, [second] =>
      match convertStringToLong second with
      | some maskLength =>
        match rangeIP.family with
        | .ipv4 => cidrMatch (poco.addr rangeIP) (poco.addr ip) maskLength.toUInt8
        | .ipv6 => cidr6Match (poco.addr rangeIP) (poco.addr ip) maskLength.toUInt8
      | none => .ok false
    | _, _ => .ok false

def anyElement (target : IPAddress) : List String → Except Fault Bool
  | [] => .ok false
  | element :: rest => do
    let a ← parse poco element
    if poco.eq a target then .ok true else anyElement target rest

def ipInRange (target : IPAddress) (r : String) : Except Fault Bool :=
  match stringTokenizer r '-' with
  | [first, second] => do
    let a ← parse poco first
    let b ← parse poco second
    if target.family ≠ a.family then .ok false else .ok (poco.le a target && poco.le target b)
  | _ =>
    let tokens := stringTokenizer r ','
    if 1 < tokens.length then anyElement poco target tokens
    else if (stringTokenizer r '/').length = 2 then cidrIPinRange poco target r
    else do
      let a ← parse poco r
      .ok (poco.eq a target)

end Checked

/-! ## The two routines -/

variable {poco} {p q : Bytes} {a target : IPAddress} {bits : UInt8} {r first second : String}
  {x : BitVec 32} {n : Nat}

theorem Checked.shiftLeft_mask (h : n ≤ 32) :
    Checked.shiftLeft x (32 - n) = .ok (x <<< (32 - n)) := by
  have hpositive : ¬ (32 - n : Int) < 0 := by omega
  have hamount : (32 - n : Int).toNat = 32 - n := by omega
  rw [Checked.shiftLeft, if_neg hpositive, hamount]

theorem Checked.cidrMatch_eq :
    Checked.cidrMatch p q bits =
      if bits.toNat ≤ 32 then .ok (CIDR.cidrMatch p q bits) else .error .negativeShift := by
  rw [Checked.cidrMatch, CIDR.cidrMatch]
  by_cases hzero : bits = 0
  · rw [if_pos hzero, if_pos hzero, if_pos (by rw [hzero]; decide)]
  · rw [if_neg hzero, if_neg hzero]
    by_cases hbits : bits.toNat ≤ 32
    · rw [if_pos hbits, Checked.shiftLeft_mask hbits]
      rfl
    · have hnegative : (32 - bits.toNat : Int) < 0 := by omega
      rw [if_neg hbits, Checked.shiftLeft, if_pos hnegative]
      rfl

/-- The words of both addresses that a mask of this length leads to are among the four. -/
def Within (p q : Bytes) (bits : UInt8) : Prop :=
  bits.toNat ≤ 128 ∨ bits.toNat < 160 ∧ memcmpEq p q 16 = false

instance : Decidable (Within p q bits) := inferInstanceAs (Decidable (_ ∨ _))

theorem Checked.cidr6Match_unfold :
    Checked.cidr6Match p q bits =
      Checked.memcmp p q (4 * (bits.toNat / 32)) >>= fun equal =>
        if !equal then .ok false
        else if bits.toNat % 32 ≠ 0 then do
          let x ← Checked.wordAt p (bits.toNat / 32)
          let y ← Checked.wordAt q (bits.toNat / 32)
          .ok ((x ^^^ y) &&& htonl (0xFFFFFFFF#32 <<< (32 - bits.toNat % 32)) = 0)
        else .ok true := by
  have hwhole : bits.toNat >>> 5 = bits.toNat / 32 := Nat.shiftRight_eq_div_pow _ 5
  have hincomplete : bits.toNat &&& 0x1F = bits.toNat % 32 := Nat.and_two_pow_sub_one_eq_mod _ 5
  have hbytes : (bits.toNat / 32) <<< 2 = 4 * (bits.toNat / 32) := by
    rw [Nat.shiftLeft_eq]
    omega
  have hlt : bits.toNat % 32 ≤ 32 := by omega
  rw [Checked.cidr6Match]
  simp only [hwhole, hincomplete, hbytes, Checked.shiftLeft_mask hlt]
  split
  · rfl
  · rename_i hzero
    rw [not_not.mp hzero]
    rfl

theorem cidr6Match_unfold :
    CIDR.cidr6Match p q bits =
      if !memcmpEq p q (4 * (bits.toNat / 32)) then false
      else if bits.toNat % 32 ≠ 0 then
        (word p (bits.toNat / 32) ^^^ word q (bits.toNat / 32)) &&&
          htonl (0xFFFFFFFF#32 <<< (32 - bits.toNat % 32)) = 0
      else true := by
  have hwhole : bits.toNat >>> 5 = bits.toNat / 32 := Nat.shiftRight_eq_div_pow _ 5
  have hincomplete : bits.toNat &&& 0x1F = bits.toNat % 32 := Nat.and_two_pow_sub_one_eq_mod _ 5
  have hbytes : (bits.toNat / 32) <<< 2 = 4 * (bits.toNat / 32) := by
    rw [Nat.shiftLeft_eq]
    omega
  have hcompare : (decide (bits.toNat / 32 ≠ 0) && !memcmpEq p q (4 * (bits.toNat / 32))) =
      !memcmpEq p q (4 * (bits.toNat / 32)) := by
    by_cases hzero : bits.toNat / 32 = 0
    · rw [hzero]
      rfl
    · rw [decide_eq_true hzero, Bool.true_and]
  rw [CIDR.cidr6Match]
  simp only [hwhole, hincomplete, hbytes, hcompare]

theorem Checked.cidr6Match_eq :
    Checked.cidr6Match p q bits =
      if Within p q bits then .ok (CIDR.cidr6Match p q bits) else .error .beyondAddress := by
  have hbits : 32 * (bits.toNat / 32) + bits.toNat % 32 = bits.toNat := Nat.div_add_mod _ 32
  have hlt : bits.toNat % 32 < 32 := by omega
  rw [Checked.cidr6Match_unfold, CIDR.cidr6Match_unfold]
  generalize bits.toNat / 32 = w at hbits ⊢
  generalize bits.toNat % 32 = n at hbits hlt ⊢
  rw [Checked.memcmp]
  -- Fewer than four whole words, four, or more.
  rcases Nat.lt_trichotomy w 4 with hw | rfl | hw
  · have hwithin : Within p q bits := .inl (by omega)
    rw [if_pos (by omega : 4 * w ≤ 16), if_pos hwithin, Checked.wordAt, Checked.wordAt,
      if_pos hw, if_pos hw]
    cases memcmpEq p q (4 * w) with
    | false => rfl
    | true =>
      by_cases hn : n = 0
      · rw [hn]
        rfl
      · simp only [if_pos hn]
        rfl
  · rw [if_pos (by decide : 4 * 4 ≤ 16)]
    cases hequal : memcmpEq p q (4 * 4) with
    | false =>
      have hwithin : Within p q bits := .inr ⟨by omega, hequal⟩
      rw [if_pos hwithin]
      rfl
    | true =>
      by_cases hn : n = 0
      · have hwithin : Within p q bits := .inl (by omega)
        rw [if_pos hwithin, hn]
        rfl
      · have hbeyond : ¬ Within p q bits := by
          rintro (hbits' | ⟨-, hdiffer⟩)
          · omega
          · rw [hequal] at hdiffer
            cases hdiffer
        rw [if_neg hbeyond]
        simp only [if_pos hn]
        rfl
  · have hbeyond : ¬ Within p q bits := by
      rintro (hbits' | ⟨hbits', -⟩) <;> omega
    rw [if_neg (by omega : ¬ 4 * w ≤ 16), if_neg hbeyond]
    rfl

/-! ## A range that is not of two halves -/

theorem Checked.ipInRange_whole (h : (stringTokenizer r '-').length ≠ 2) :
    Checked.ipInRange poco target r =
      if 1 < (stringTokenizer r ',').length then
        Checked.anyElement poco target (stringTokenizer r ',')
      else if (stringTokenizer r '/').length = 2 then Checked.cidrIPinRange poco target r
      else Checked.parse poco r >>= fun a => .ok (poco.eq a target) := by
  rw [Checked.ipInRange]
  split
  · rename_i htokens
    exact absurd (congrArg List.length htokens) h
  · rfl

theorem ipInRange_whole (h : (stringTokenizer r '-').length ≠ 2) :
    ipInRange poco target r =
      if 1 < (stringTokenizer r ',').length then anyElement poco target (stringTokenizer r ',')
      else if (stringTokenizer r '/').length = 2 then cidrIPinRange poco target r
      else (poco.tryParse r).map fun a => poco.eq a target := by
  rw [ipInRange]
  split
  · rename_i htokens
    exact absurd (congrArg List.length htokens) h
  · rfl

theorem validateRange_whole (h : (stringTokenizer r '-').length ≠ 2) :
    validateRange poco r =
      if 1 < (stringTokenizer r ',').length then
        (stringTokenizer r ',').all fun a => (poco.tryParse a).isSome
      else
        match stringTokenizer r '/' with
        | [network, mask] =>
          if (poco.tryParse network).isNone then false
          else if atoi mask = 0 then false
          else true
        | _ => (poco.tryParse r).isSome := by
  rw [validateRange]
  split
  · rename_i htokens
    exact absurd (congrArg List.length htokens) h
  · rfl

theorem validateHalves_iff :
    validateHalves poco first second = true ↔
      match poco.tryParse first with
      | some a => a.family = .ipv4
      | none => poco.tryParse second = none := by
  rw [validateHalves]
  cases poco.tryParse first with
  | some a => simp [familyOf]
  | none => cases poco.tryParse second <;> simp [familyOf]

/-! ## The same answers -/

/-- Where it is not undefined, the checked call ends as the call does. -/
def Agrees (outcome : Except Fault Bool) (answer : Option Bool) : Prop :=
  match outcome with
  | .ok b => answer = some b
  | .error .exception => answer = none
  | .error _ => True

theorem agrees_ite {c : Prop} [Decidable c] {b : Bool} {fault : Fault}
    (h : fault ≠ .exception) : Agrees (if c then .ok b else .error fault) (some b) := by
  split
  · rfl
  · cases fault with
    | exception => exact absurd rfl h
    | negativeShift => trivial
    | beyondAddress => trivial

theorem cidrIPinRange_agrees :
    Agrees (Checked.cidrIPinRange poco target r) (cidrIPinRange poco target r) := by
  rw [Checked.cidrIPinRange, cidrIPinRange]
  rcases (stringTokenizer r '/').map trim with _ | ⟨network, _ | ⟨mask, _ | ⟨third, rest⟩⟩⟩
  · rfl
  · dsimp only
    cases poco.tryParse network <;> rfl
  · dsimp only
    cases poco.tryParse network with
    | none => rfl
    | some a =>
      dsimp only
      cases convertStringToLong mask with
      | none => rfl
      | some maskLength =>
        simp only [Checked.cidrMatch_eq, Checked.cidr6Match_eq]
        cases a.family with
        | ipv4 => exact agrees_ite Fault.noConfusion
        | ipv6 => exact agrees_ite Fault.noConfusion
  · dsimp only
    cases poco.tryParse network <;> rfl

theorem anyElement_agrees (tokens : List String) :
    Agrees (Checked.anyElement poco target tokens) (anyElement poco target tokens) := by
  induction tokens with
  | nil => rfl
  | cons element rest ih =>
    simp only [Checked.anyElement, anyElement, Checked.parse]
    cases poco.tryParse element with
    | none => rfl
    | some a =>
      simp only [bind, Except.bind]
      split
      · rfl
      · exact ih

theorem ipInRange_agrees : Agrees (Checked.ipInRange poco target r) (ipInRange poco target r) := by
  by_cases hhalves : (stringTokenizer r '-').length = 2
  · obtain ⟨first, second, htokens⟩ := List.length_eq_two.mp hhalves
    rw [Checked.ipInRange, ipInRange, htokens]
    dsimp only [Checked.parse]
    cases poco.tryParse first with
    | none => rfl
    | some a =>
      cases poco.tryParse second with
      | none => rfl
      | some b =>
        dsimp only [bind, Except.bind, Option.bind]
        split <;> rfl
  rw [Checked.ipInRange_whole hhalves, ipInRange_whole hhalves]
  split
  · exact anyElement_agrees _
  split
  · exact cidrIPinRange_agrees
  · rw [Checked.parse]
    cases poco.tryParse r <;> rfl

/-! ## What a range must be -/

/-- A mask of this length is neither shifted by a negative number nor laid over a fifth word. -/
def MaskFits (poco : Poco) (a target : IPAddress) (bits : UInt8) : Prop :=
  match a.family with
  | .ipv4 => bits.toNat ≤ 32
  | .ipv6 => Within (poco.addr a) (poco.addr target) bits

structure Usable (poco : Poco) (target : IPAddress) (r : String) : Prop where
  halves : ∀ first second, stringTokenizer r '-' = [first, second] →
    (poco.tryParse first).isSome ∧ (poco.tryParse second).isSome
  mask : (stringTokenizer r '-').length ≠ 2 → (stringTokenizer r ',').length ≤ 1 →
    ∀ network mask a maskLength, stringTokenizer r '/' = [network, mask] →
      poco.tryParse (trim network) = some a → convertStringToLong (trim mask) = some maskLength →
      MaskFits poco a target maskLength.toUInt8

/-! ## Each form of a range -/

def Answers (outcome : Except Fault Bool) : Prop := ∃ answer, outcome = .ok answer

theorem answers_ok (answer : Bool) : Answers (.ok answer) := ⟨answer, rfl⟩

theorem not_answers_error (fault : Fault) : ¬ Answers (.error fault) := by
  rintro ⟨answer, h⟩
  cases h

theorem answers_ite {c : Prop} [Decidable c] {answer : Bool} {fault : Fault} :
    Answers (if c then .ok answer else .error fault) ↔ c := by
  split
  · exact iff_of_true (answers_ok answer) ‹c›
  · exact iff_of_false (not_answers_error fault) ‹¬ c›

theorem answers_halves (h : stringTokenizer r '-' = [first, second]) :
    Answers (Checked.ipInRange poco target r) ↔
      (poco.tryParse first).isSome ∧ (poco.tryParse second).isSome := by
  rw [Checked.ipInRange, h]
  simp only [Checked.parse]
  cases poco.tryParse first with
  | none => simp [not_answers_error, bind, Except.bind]
  | some a =>
    cases poco.tryParse second with
    | none => simp [not_answers_error, bind, Except.bind]
    | some b =>
      simp only [bind, Except.bind, Option.isSome_some, and_self, iff_true]
      split
      · exact answers_ok _
      · exact answers_ok _

theorem answers_anyElement {tokens : List String}
    (h : ∀ t ∈ tokens, (poco.tryParse t).isSome) :
    Answers (Checked.anyElement poco target tokens) := by
  induction tokens with
  | nil => exact answers_ok false
  | cons element rest ih =>
    obtain ⟨a, ha⟩ := Option.isSome_iff_exists.mp (h element List.mem_cons_self)
    simp only [Checked.anyElement, Checked.parse, ha, bind, Except.bind]
    split
    · exact answers_ok true
    · exact ih fun t ht => h t (List.mem_cons_of_mem element ht)

theorem answers_mask :
    Answers (match a.family with
      | .ipv4 => Checked.cidrMatch (poco.addr a) (poco.addr target) bits
      | .ipv6 => Checked.cidr6Match (poco.addr a) (poco.addr target) bits) ↔
    MaskFits poco a target bits := by
  rw [MaskFits, Checked.cidrMatch_eq, Checked.cidr6Match_eq]
  cases a.family with
  | ipv4 => exact answers_ite
  | ipv6 => exact answers_ite

theorem answers_cidrIPinRange {network mask : String}
    (h : stringTokenizer r '/' = [network, mask]) :
    Answers (Checked.cidrIPinRange poco target r) ↔
      ∀ a maskLength, poco.tryParse (trim network) = some a →
        convertStringToLong (trim mask) = some maskLength →
        MaskFits poco a target maskLength.toUInt8 := by
  rw [Checked.cidrIPinRange, h, List.map_cons, List.map_singleton]
  cases hnetwork : poco.tryParse (trim network) with
  | none =>
    simp only [hnetwork, reduceCtorEq, false_implies, implies_true, iff_true]
    exact answers_ok false
  | some a =>
    cases hmask : convertStringToLong (trim mask) with
    | none =>
      simp only [hnetwork, hmask, reduceCtorEq, false_implies, implies_true, iff_true]
      exact answers_ok false
    | some maskLength =>
      simp only [hnetwork, hmask, Option.some.injEq]
      constructor
      · rintro hanswers a' maskLength' rfl rfl
        exact answers_mask.mp hanswers
      · exact fun hfits => answers_mask.mpr (hfits a maskLength rfl rfl)

theorem answers_parse (h : (poco.tryParse r).isSome) :
    Answers (Checked.parse poco r >>= fun a => .ok (poco.eq a target)) := by
  obtain ⟨a, ha⟩ := Option.isSome_iff_exists.mp h
  simp only [Checked.parse, ha]
  exact answers_ok _

/-! ## Validation and use -/

theorem usable_of_answers (hanswers : Answers (Checked.ipInRange poco target r)) :
    Usable poco target r where
  halves first second htokens := (answers_halves htokens).mp hanswers
  mask hhalves hlist network mask a maskLength htokens := by
    have hslash : (stringTokenizer r '/').length = 2 := congrArg List.length htokens
    rw [Checked.ipInRange_whole hhalves, if_neg (Nat.not_lt.mpr hlist), if_pos hslash] at hanswers
    exact (answers_cidrIPinRange htokens).mp hanswers a maskLength

theorem answers_of_usable (h : validateRange poco r = true) (husable : Usable poco target r) :
    Answers (Checked.ipInRange poco target r) := by
  by_cases hhalves : (stringTokenizer r '-').length = 2
  · obtain ⟨first, second, htokens⟩ := List.length_eq_two.mp hhalves
    exact (answers_halves htokens).mpr (husable.halves first second htokens)
  rw [validateRange_whole hhalves] at h
  rw [Checked.ipInRange_whole hhalves]
  by_cases hlist : 1 < (stringTokenizer r ',').length
  · rw [if_pos hlist] at h ⊢
    exact answers_anyElement (List.all_eq_true.mp h)
  rw [if_neg hlist] at h ⊢
  by_cases hslash : (stringTokenizer r '/').length = 2
  · obtain ⟨network, mask, htokens⟩ := List.length_eq_two.mp hslash
    rw [if_pos hslash]
    exact (answers_cidrIPinRange htokens).mpr fun a maskLength =>
      husable.mask hhalves (Nat.not_lt.mp hlist) network mask a maskLength htokens
  · have hparsed : (poco.tryParse r).isSome := by
      revert h
      split
      · rename_i htokens
        exact absurd (congrArg List.length htokens) hslash
      · exact id
    rw [if_neg hslash]
    exact answers_parse hparsed

/-- What `ValidateRange` accepts, `IpInRange` answers, but for the halves and for the masks. -/
theorem validated_answers_iff (poco : Poco) (target : IPAddress) (r : String)
    (h : validateRange poco r = true) :
    (∃ answer, Checked.ipInRange poco target r = .ok answer) ↔ Usable poco target r :=
  ⟨usable_of_answers, answers_of_usable h⟩

theorem validated_answers_iff_ten :
    (∃ answer, Checked.ipInRange onePoco (octets4 10 1 2 3) "10.0.0.0/8" = .ok answer) ↔
      Usable onePoco (octets4 10 1 2 3) "10.0.0.0/8" :=
  validated_answers_iff onePoco (octets4 10 1 2 3) "10.0.0.0/8" (by decide +kernel)

/-- A mask of 33 bits passes. -/
theorem mask_too_long_accepted :
    ¬ ∀ (poco : Poco) (target : IPAddress) (r : String), validateRange poco r = true →
      ∃ answer, Checked.ipInRange poco target r = .ok answer := by
  intro h
  obtain ⟨answer, hanswer⟩ := h onePoco (octets4 10 1 2 3) "10.0.0.0/33" (by decide +kernel)
  have hshift : Checked.ipInRange onePoco (octets4 10 1 2 3) "10.0.0.0/33" =
      .error .negativeShift := by
    decide +kernel
  rw [hshift] at hanswer
  cases hanswer

/-! ## Lists of ranges -/

namespace Checked

def anyRange (poco : Poco) (target : IPAddress) : List String → Except Fault Bool
  | [] => .ok false
  | r :: rest => do
    if ← ipInRange poco target r then .ok true else anyRange poco target rest

def ipInRanges (poco : Poco) (ip : String) (ranges : List String) : Except Fault Bool :=
  match poco.tryParse ip with
  | none => .ok false
  | some target => anyRange poco target ranges

end Checked

theorem answers_anyRange {ranges : List String} (h : ∀ r ∈ ranges, validateRange poco r = true)
    (husable : ∀ r ∈ ranges, Usable poco target r) :
    Answers (Checked.anyRange poco target ranges) := by
  induction ranges with
  | nil => exact answers_ok false
  | cons r rest ih =>
    obtain ⟨hr, hrest⟩ := List.forall_mem_cons.mp h
    obtain ⟨husabler, husablerest⟩ := List.forall_mem_cons.mp husable
    obtain ⟨answer, hanswer⟩ := answers_of_usable hr husabler
    rw [Checked.anyRange, hanswer]
    cases answer with
    | true => exact answers_ok true
    | false => exact ih hrest husablerest

theorem validated_ranges_answer {ip : String} {ranges : List String}
    (h : validateIpRanges poco ranges = true)
    (husable : ∀ target, poco.tryParse ip = some target → ∀ r ∈ ranges, Usable poco target r) :
    Answers (Checked.ipInRanges poco ip ranges) := by
  rw [Checked.ipInRanges]
  cases hip : poco.tryParse ip with
  | none => exact answers_ok false
  | some target => exact answers_anyRange (List.all_eq_true.mp h) (husable target hip)

end Owls.CIDR
