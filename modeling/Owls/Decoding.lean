import Mathlib.Data.List.GetD
import Owls.Compression

/-!
# The decoder

`Utils::base64decode` takes back what `Utils::base64encode` gives. It looks at no character after
the first padding. A `Char` of the text stands for a byte.
-/

namespace Owls.Utils

/-! ## The code -/

/-- `outside`: a character past the end is read. -/
inductive DecodeError
  | length
  | padding
  | character
  | outside
deriving DecidableEq

def sextetOf (c : Char) : Option UInt32 :=
  let n := c.toNat
  if 0x41 ≤ n ∧ n ≤ 0x5A then some (.ofNat (n - 0x41))
  else if 0x61 ≤ n ∧ n ≤ 0x7A then some (.ofNat (n - 0x47))
  else if 0x30 ≤ n ∧ n ≤ 0x39 then some (.ofNat (n + 0x04))
  else if n = 0x2B then some 0x3E
  else if n = 0x2F then some 0x3F
  else none

/-- Both loops: `i` characters of a group are read, and `temp` keeps what it has from the groups
before. -/
def decodeLoop (i : Nat) (temp : UInt32) (decoded : List UInt8) :
    List Char → Except DecodeError (List UInt8)
  | [] => if i = 0 then .ok decoded else .error .outside
  | c :: cs =>
    let temp := temp <<< 6
    match sextetOf c with
    | some v =>
      let temp := temp ||| v
      if i = 3 then
        decodeLoop 0 temp
          (decoded ++ [(temp >>> 16).toUInt8, (temp >>> 8).toUInt8, temp.toUInt8]) cs
      else decodeLoop (i + 1) temp decoded cs
    | none =>
      if c = kPadCharacter then
        match cs with
        | [] => .ok (decoded ++ [(temp >>> 16).toUInt8, (temp >>> 8).toUInt8])
        | [_] => .ok (decoded ++ [(temp >>> 10).toUInt8])
        | _ => .error .padding
      else .error .character

def base64decode (input : List Char) : Except DecodeError (List UInt8) :=
  if input.length % 4 ≠ 0 then .error .length else decodeLoop 0 0 [] input

variable {temp v : UInt32} {c : Char} {cs body : List Char} {decoded : List UInt8} {i : Nat}

/-! ## The characters -/

theorem sextetOf_digit {n : Nat} (h : n < 64) : sextetOf (Base64.digit n) = some (.ofNat n) := by
  have hall : ∀ n ∈ List.range 64, sextetOf (Base64.digit n) = some (.ofNat n) := by
    decide +kernel
  exact hall n (List.mem_range.mpr h)

theorem sextetOf_pad : sextetOf '=' = none := by decide +kernel

/-! ## The accumulator -/

def push (temp v : UInt32) : UInt32 := temp <<< 6 ||| v

theorem push_toNat (hv : v.toNat < 64) :
    (push temp v).toNat = 64 * (temp.toNat % 67108864) + v.toNat := by
  have hshift : (temp <<< 6).toNat = 2 ^ 6 * (temp.toNat % 67108864) := by
    rw [UInt32.toNat_shiftLeft, Nat.shiftLeft_eq]
    change temp.toNat * 64 % 4294967296 = 64 * _
    omega
  rw [push, UInt32.toNat_or, hshift, ← Nat.two_pow_add_eq_or_of_lt hv]

theorem byteAt (k : UInt32) (hk : k.toNat < 32) :
    (temp >>> k).toUInt8 = .ofNat (temp.toNat / 2 ^ k.toNat) := by
  rw [← UInt8.toNat_inj, UInt32.toNat_toUInt8, UInt32.toNat_shiftRight, Nat.mod_eq_of_lt hk,
    Nat.shiftRight_eq_div_pow, UInt8.toNat_ofNat']

theorem ofNat_toNat_lt {n : Nat} (h : n < 64) : (UInt32.ofNat n).toNat = n := by
  rw [UInt32.toNat_ofNat', Nat.mod_eq_of_lt (by omega)]

theorem push_three {x y z : Nat} (hx : x < 64) (hy : y < 64) (hz : z < 64) (temp : UInt32) :
    (push (push (push temp (.ofNat x)) (.ofNat y)) (.ofNat z)).toNat % 262144 =
      x * 4096 + y * 64 + z := by
  have hx' := ofNat_toNat_lt hx
  have hy' := ofNat_toNat_lt hy
  have hz' := ofNat_toNat_lt hz
  rw [push_toNat (by omega), push_toNat (by omega), push_toNat (by omega), hx', hy', hz']
  omega

theorem push_four {x y z w : Nat} (hx : x < 64) (hy : y < 64) (hz : z < 64) (hw : w < 64)
    (temp : UInt32) :
    (push (push (push (push temp (.ofNat x)) (.ofNat y)) (.ofNat z)) (.ofNat w)).toNat %
        16777216 = x * 262144 + y * 4096 + z * 64 + w := by
  have hthree := push_three hx hy hz temp
  have hw' := ofNat_toNat_lt hw
  rw [push_toNat (by omega), hw']
  omega

/-! ## One character -/

theorem decodeLoop_sextet (hc : sextetOf c = some v) (hi : i < 3) :
    decodeLoop i temp decoded (c :: cs) = decodeLoop (i + 1) (push temp v) decoded cs := by
  rw [decodeLoop.eq_def]
  simp only [hc, if_neg hi.ne]
  rfl

theorem decodeLoop_last (hc : sextetOf c = some v) :
    decodeLoop 3 temp decoded (c :: cs) =
      decodeLoop 0 (push temp v)
        (decoded ++ [(push temp v >>> 16).toUInt8, (push temp v >>> 8).toUInt8,
          (push temp v).toUInt8]) cs := by
  rw [decodeLoop.eq_def]
  simp only [hc]
  rfl

theorem decodeLoop_pad :
    decodeLoop i temp decoded ('=' :: cs) =
      match cs with
      | [] => .ok (decoded ++ [(temp <<< 6 >>> 16).toUInt8, (temp <<< 6 >>> 8).toUInt8])
      | [_] => .ok (decoded ++ [(temp <<< 6 >>> 10).toUInt8])
      | _ => .error .padding := by
  rw [decodeLoop.eq_def]
  simp only [sextetOf_pad]
  rfl

theorem decodeLoop_foreign (hc : sextetOf c = none) (hpad : c ≠ '=') :
    decodeLoop i temp decoded (c :: cs) = .error .character := by
  rw [decodeLoop.eq_def]
  simp only [hc]
  exact if_neg hpad

/-! ## What was encoded -/

theorem encode_length (bytes : List UInt8) :
    (Base64.encode bytes).length = 4 * ((bytes.length + 2) / 3) := by
  induction bytes using Base64.encode.induct with
  | case1 => rfl
  | case2 a => simp [Base64.encode]
  | case3 a b => simp [Base64.encode]
  | case4 a b c rest ih =>
    simp only [Base64.encode, List.length_cons, ih]
    omega

theorem shift_eq_push : temp <<< 6 = push temp (.ofNat 0) := by
  rw [push]
  exact UInt32.or_zero.symm

theorem bytes_of_group {a b c : UInt8}
    (h : temp.toNat % 16777216 = a.toNat * 65536 + b.toNat * 256 + c.toNat) :
    (temp >>> 16).toUInt8 = a ∧ (temp >>> 8).toUInt8 = b ∧ temp.toUInt8 = c := by
  have ha := a.toNat_lt
  have hb := b.toNat_lt
  have hc := c.toNat_lt
  rw [byteAt 16 (by decide), byteAt 8 (by decide), ← UInt8.toNat_inj, ← UInt8.toNat_inj,
    ← UInt8.toNat_inj, UInt8.toNat_ofNat', UInt8.toNat_ofNat', UInt32.toNat_toUInt8]
  change temp.toNat / 65536 % 256 = _ ∧ temp.toNat / 256 % 256 = _ ∧ temp.toNat % 256 = _
  omega

theorem byte_of_pair {a : UInt8} (h : temp.toNat % 262144 = a.toNat * 1024) :
    (temp >>> 10).toUInt8 = a := by
  have ha := a.toNat_lt
  rw [byteAt 10 (by decide), ← UInt8.toNat_inj, UInt8.toNat_ofNat']
  change temp.toNat / 1024 % 256 = _
  omega

theorem decodeLoop_encode (bytes : List UInt8) :
    decodeLoop 0 temp decoded (Base64.encode bytes) = .ok (decoded ++ bytes) := by
  induction bytes using Base64.encode.induct generalizing temp decoded with
  | case1 => simp [Base64.encode, decodeLoop]
  | case2 a =>
    have ha := a.toNat_lt
    have hx : a.toNat / 4 < 64 := by omega
    have hy : a.toNat % 4 * 16 < 64 := by omega
    have hpair := push_three hx hy (by decide : 0 < 64) temp
    rw [Base64.encode, decodeLoop_sextet (sextetOf_digit hx) (by decide),
      decodeLoop_sextet (sextetOf_digit hy) (by decide), decodeLoop_pad, shift_eq_push]
    dsimp only
    rw [byte_of_pair (a := a) (by rw [hpair]; omega)]
  | case3 a b =>
    have ha := a.toNat_lt
    have hb := b.toNat_lt
    have hx : a.toNat / 4 < 64 := by omega
    have hy : a.toNat % 4 * 16 + b.toNat / 16 < 64 := by omega
    have hz : b.toNat % 16 * 4 < 64 := by omega
    have hgroup := push_four hx hy hz (by decide : 0 < 64) temp
    obtain ⟨hfirst, hsecond, -⟩ := bytes_of_group (a := a) (b := b) (c := 0)
      (by rw [hgroup, UInt8.toNat_zero]; omega)
    rw [Base64.encode, decodeLoop_sextet (sextetOf_digit hx) (by decide),
      decodeLoop_sextet (sextetOf_digit hy) (by decide),
      decodeLoop_sextet (sextetOf_digit hz) (by decide), decodeLoop_pad, shift_eq_push]
    dsimp only
    rw [hfirst, hsecond]
  | case4 a b c rest ih =>
    have ha := a.toNat_lt
    have hb := b.toNat_lt
    have hc := c.toNat_lt
    have hx : a.toNat / 4 < 64 := by omega
    have hy : a.toNat % 4 * 16 + b.toNat / 16 < 64 := by omega
    have hz : b.toNat % 16 * 4 + c.toNat / 64 < 64 := by omega
    have hw : c.toNat % 64 < 64 := by omega
    have hgroup := push_four hx hy hz hw temp
    obtain ⟨hfirst, hsecond, hthird⟩ := bytes_of_group (a := a) (b := b) (c := c)
      (by rw [hgroup]; omega)
    rw [Base64.encode, decodeLoop_sextet (sextetOf_digit hx) (by decide),
      decodeLoop_sextet (sextetOf_digit hy) (by decide),
      decodeLoop_sextet (sextetOf_digit hz) (by decide), decodeLoop_last (sextetOf_digit hw),
      hfirst, hsecond, hthird, ih, List.append_assoc]
    rfl

theorem decode_encoded (x : List UInt8) (h : x.length < 2 ^ 31) :
    base64decode (base64encode x (.ofNat x.length)) = .ok x ∧
      (base64encode x (.ofNat x.length)).length = 4 * ((x.length + 2) / 3) := by
  have hlt : x.length < 2 ^ 32 := Nat.lt_trans h (by decide)
  have hlength := encode_length x
  have hfour : (Base64.encode x).length % 4 = 0 := by omega
  rw [base64encode_eq hlt, base64decode, if_neg (not_not.mpr hfour), decodeLoop_encode]
  exact ⟨rfl, hlength⟩

theorem decode_encoded_two :
    base64decode (base64encode [251, 255] (.ofNat [251, 255].length)) = .ok [251, 255] ∧
      (base64encode [251, 255] (.ofNat [251, 255].length)).length =
        4 * (([251, 255].length + 2) / 3) :=
  decode_encoded [251, 255] (by decide)

/-! ## The texts it takes -/

theorem sextetOf_eq_some (h : sextetOf c = some v) :
    v.toNat < 26 ∧ c.toNat = v.toNat + 0x41 ∨
      26 ≤ v.toNat ∧ v.toNat < 52 ∧ c.toNat = v.toNat + 0x47 ∨
      52 ≤ v.toNat ∧ v.toNat < 62 ∧ c.toNat + 4 = v.toNat ∨
      v.toNat = 62 ∧ c.toNat = 0x2B ∨ v.toNat = 63 ∧ c.toNat = 0x2F := by
  unfold sextetOf at h
  dsimp only at h
  split_ifs at h with hcapital hsmall hdecimal hplus hslash
  · rw [← Option.some.inj h, ofNat_toNat_lt (by omega)]
    omega
  · rw [← Option.some.inj h, ofNat_toNat_lt (by omega)]
    omega
  · rw [← Option.some.inj h, ofNat_toNat_lt (by omega)]
    omega
  · rw [← Option.some.inj h]
    exact .inr (.inr (.inr (.inl ⟨rfl, hplus⟩)))
  · rw [← Option.some.inj h]
    exact .inr (.inr (.inr (.inr ⟨rfl, hslash⟩)))

theorem digit_of_sextetOf (h : sextetOf c = some v) : v.toNat < 64 ∧ Base64.digit v.toNat = c := by
  have hc := sextetOf_eq_some h
  have hlt : v.toNat < 64 := by omega
  have hdigit := sextetOf_digit hlt
  rw [UInt32.ofNat_toNat] at hdigit
  have hd := sextetOf_eq_some hdigit
  have hsame : (Base64.digit v.toNat).toNat = c.toNat := by omega
  exact ⟨hlt, Char.toNat_inj.mp hsame⟩

theorem sextetOf_isSome_iff : (sextetOf c).isSome ↔ c ∈ kEncodeLookup := by
  have hlength : Base64.alphabet.length = 64 := by decide +kernel
  constructor
  · intro h
    obtain ⟨v, hv⟩ := Option.isSome_iff_exists.mp h
    obtain ⟨hlt, hdigit⟩ := digit_of_sextetOf hv
    have hget : Base64.digit v.toNat = Base64.alphabet[v.toNat] :=
      List.getD_eq_getElem _ _ (hlength ▸ hlt)
    rw [← hdigit, hget]
    exact List.getElem_mem _
  · intro hmem
    obtain ⟨n, hn, hget⟩ := List.getElem_of_mem hmem
    have hdigit : Base64.digit n = c := (List.getD_eq_getElem _ _ hn).trans hget
    rw [← hdigit, sextetOf_digit (Nat.lt_of_lt_of_eq hn hlength)]
    rfl

/-- Characters of the alphabet, then at most two paddings. -/
def Padded (s : List Char) : Prop :=
  ∃ body n, s = body ++ List.replicate n '=' ∧ n ≤ 2 ∧ ∀ c ∈ body, c ∈ kEncodeLookup

/-- Characters of the alphabet, a padding, and one character that is none. -/
def Stray (s : List Char) : Prop :=
  ∃ body c, s = body ++ ['=', c] ∧ c ≠ '=' ∧ ∀ d ∈ body, d ∈ kEncodeLookup

/-- All that the loop asks of a text. -/
def Accepted (s : List Char) : Prop :=
  ∃ body tail, s = body ++ tail ∧ (∀ d ∈ body, d ∈ kEncodeLookup) ∧
    (tail = [] ∨ tail = ['='] ∨ ∃ c, tail = ['=', c])

theorem pad_not_mem : '=' ∉ kEncodeLookup := by
  rw [← sextetOf_isSome_iff, sextetOf_pad]
  decide

theorem accepted_cons (hc : c ∈ kEncodeLookup) : Accepted (c :: cs) ↔ Accepted cs := by
  constructor
  · rintro ⟨_ | ⟨d, body⟩, tail, heq, hbody, htail⟩
    · have hpad : c = '=' := by
        rcases htail with rfl | rfl | ⟨c', rfl⟩
        · cases heq
        · exact (List.cons.inj heq).1
        · exact (List.cons.inj heq).1
      exact absurd (hpad ▸ hc) pad_not_mem
    · obtain ⟨rfl, rfl⟩ := List.cons.inj heq
      exact ⟨body, tail, rfl, (List.forall_mem_cons.mp hbody).2, htail⟩
  · rintro ⟨body, tail, rfl, hbody, htail⟩
    exact ⟨c :: body, tail, rfl, List.forall_mem_cons.mpr ⟨hc, hbody⟩, htail⟩

theorem accepted_other (hc : c ∉ kEncodeLookup) :
    Accepted (c :: cs) ↔ c = '=' ∧ cs.length ≤ 1 := by
  constructor
  · rintro ⟨_ | ⟨d, body⟩, tail, heq, hbody, htail⟩
    · rcases htail with rfl | rfl | ⟨c', rfl⟩
      · cases heq
      · obtain ⟨rfl, rfl⟩ := List.cons.inj heq
        exact ⟨rfl, Nat.zero_le 1⟩
      · obtain ⟨rfl, rfl⟩ := List.cons.inj heq
        exact ⟨rfl, le_rfl⟩
    · obtain ⟨rfl, rfl⟩ := List.cons.inj heq
      exact absurd (hbody c List.mem_cons_self) hc
  · rintro ⟨rfl, hlength⟩
    refine ⟨[], '=' :: cs, rfl, List.forall_mem_nil _, .inr ?_⟩
    match cs, hlength with
    | [], _ => exact .inl rfl
    | [c'], _ => exact .inr ⟨c', rfl⟩

/-- Where the loop gives nothing it has thrown: no character past the end is read. -/
def Raises (outcome : Except DecodeError (List UInt8)) : Prop :=
  ∃ e, e ≠ .outside ∧ outcome = .error e

theorem decodeLoop_outcome (hi : i < 4) (hlength : (i + cs.length) % 4 = 0) :
    Accepted cs ∧ (∃ bytes, decodeLoop i temp decoded cs = .ok bytes) ∨
      ¬ Accepted cs ∧ Raises (decodeLoop i temp decoded cs) := by
  induction cs generalizing i temp decoded with
  | nil =>
    have hzero : i = 0 := by
      rw [List.length_nil] at hlength
      omega
    exact .inl ⟨⟨[], [], rfl, List.forall_mem_nil _, .inl rfl⟩, decoded, if_pos hzero⟩
  | cons c cs ih =>
    rw [List.length_cons] at hlength
    cases hc : sextetOf c with
    | some v =>
      have hmem : c ∈ kEncodeLookup := sextetOf_isSome_iff.mp (by rw [hc]; rfl)
      rw [accepted_cons hmem]
      rcases Nat.lt_or_ge i 3 with hlt | hge
      · rw [decodeLoop_sextet hc hlt]
        exact ih (by omega) (by omega)
      · obtain rfl : i = 3 := by omega
        rw [decodeLoop_last hc]
        exact ih (by decide) (by omega)
    | none =>
      have hmem : c ∉ kEncodeLookup := fun hmem => by
        have hsome := sextetOf_isSome_iff.mpr hmem
        rw [hc] at hsome
        cases hsome
      rw [accepted_other hmem]
      by_cases hpad : c = '='
      · rw [hpad, decodeLoop_pad]
        match cs with
        | [] => exact .inl ⟨⟨rfl, Nat.zero_le 1⟩, _, rfl⟩
        | [_] => exact .inl ⟨⟨rfl, le_rfl⟩, _, rfl⟩
        | _ :: _ :: _ => exact .inr ⟨by simp, .padding, by decide, rfl⟩
      · rw [decodeLoop_foreign hc hpad]
        exact .inr ⟨fun h => hpad h.1, .character, by decide, rfl⟩

theorem base64decode_outcome (s : List Char) :
    (s.length % 4 = 0 ∧ Accepted s) ∧ (∃ bytes, base64decode s = .ok bytes) ∨
      ¬ (s.length % 4 = 0 ∧ Accepted s) ∧ Raises (base64decode s) := by
  rw [base64decode]
  by_cases hfour : s.length % 4 = 0
  · rw [if_neg (not_not.mpr hfour), and_iff_right hfour]
    exact decodeLoop_outcome (by decide) (by omega)
  · rw [if_pos hfour]
    exact .inr ⟨fun h => hfour h.1, .length, by decide, rfl⟩

theorem not_raises_ok {bytes : List UInt8} : ¬ Raises (.ok bytes) := by
  rintro ⟨e, -, h⟩
  cases h

theorem accepted_iff (s : List Char) : Accepted s ↔ Padded s ∨ Stray s := by
  constructor
  · rintro ⟨body, tail, rfl, hbody, rfl | rfl | ⟨c, rfl⟩⟩
    · exact .inl ⟨body, 0, rfl, by decide, hbody⟩
    · exact .inl ⟨body, 1, rfl, by decide, hbody⟩
    · by_cases hc : c = '='
      · exact .inl ⟨body, 2, by rw [hc]; rfl, by decide, hbody⟩
      · exact .inr ⟨body, c, rfl, hc, hbody⟩
  · rintro (⟨body, n, rfl, hn, hbody⟩ | ⟨body, c, rfl, -, hbody⟩)
    · refine ⟨body, _, rfl, hbody, ?_⟩
      match n, hn with
      | 0, _ => exact .inl rfl
      | 1, _ => exact .inr (.inl rfl)
      | 2, _ => exact .inr (.inr ⟨'=', rfl⟩)
    · exact ⟨body, _, rfl, hbody, .inr (.inr ⟨c, rfl⟩)⟩

theorem not_stray_of_padded {s : List Char} (h : Padded s) : ¬ Stray s := by
  obtain ⟨body, n, rfl, -, hbody⟩ := h
  rintro ⟨body', c, heq, hc, -⟩
  cases n with
  | zero =>
    have hmem : '=' ∈ body' ++ ['=', c] :=
      List.mem_append_right body' (List.mem_cons_self)
    rw [← heq, List.replicate_zero, List.append_nil] at hmem
    exact pad_not_mem (hbody _ hmem)
  | succ n =>
    have hlast := congrArg List.getLast? heq
    rw [List.replicate_succ', ← List.append_assoc, List.getLast?_concat, List.getLast?_append] at hlast
    exact hc (Option.some.inj hlast).symm

/-- The padding before a last character that is none is not seen to be out of place. -/
theorem base64decode_accepts_iff (s : List Char) :
    ((s.length % 4 = 0 ∧ Padded s → ∃ bytes, base64decode s = .ok bytes) ∧
        (¬ (s.length % 4 = 0 ∧ Padded s) → Raises (base64decode s))) ↔
      ¬ (s.length % 4 = 0 ∧ Stray s) := by
  have haccepted := accepted_iff s
  obtain ⟨⟨hfour, hgood⟩, bytes, hbytes⟩ | ⟨hbad, hraises⟩ := base64decode_outcome s
  · have hnone : ¬ Raises (base64decode s) := hbytes ▸ not_raises_ok
    constructor
    · rintro ⟨-, hothers⟩ ⟨-, hstray⟩
      exact hnone (hothers fun hpadded => not_stray_of_padded hpadded.2 hstray)
    · intro hnot
      have hpadded : Padded s :=
        (haccepted.mp hgood).resolve_right fun hstray => hnot ⟨hfour, hstray⟩
      exact ⟨fun _ => ⟨bytes, hbytes⟩, fun hothers => absurd ⟨hfour, hpadded⟩ hothers⟩
  · refine iff_of_true ⟨fun hpadded => ?_, fun _ => hraises⟩ fun hstray => ?_
    · exact absurd ⟨hpadded.1, haccepted.mpr (.inl hpadded.2)⟩ hbad
    · exact hbad ⟨hstray.1, haccepted.mpr (.inr hstray.2)⟩

theorem stray_last_accepted :
    ¬ ∀ s : List Char,
      (s.length % 4 = 0 ∧ Padded s → ∃ bytes, base64decode s = .ok bytes) ∧
        (¬ (s.length % 4 = 0 ∧ Padded s) → Raises (base64decode s)) := by
  intro h
  have hmem : 'Q' ∈ kEncodeLookup := sextetOf_isSome_iff.mp (by decide)
  have hstray : Stray ['Q', 'Q', '=', '!'] := ⟨['Q', 'Q'], '!', rfl, by decide, by simpa using hmem⟩
  have hdecoded : base64decode ['Q', 'Q', '=', '!'] = .ok [65] := by decide +kernel
  have hraises := (h ['Q', 'Q', '=', '!']).2 fun hpadded => not_stray_of_padded hpadded.2 hstray
  exact not_raises_ok (hdecoded ▸ hraises)

end Owls.Utils
