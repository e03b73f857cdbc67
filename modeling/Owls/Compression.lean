import Mathlib.Algebra.Group.Nat.Defs
import Mathlib.Data.List.TakeWhile
import Owls.Base.Base64

/-!
# The compressed state

`State` sends its report compressed and in base64, and `ExtractBase64CompressedData` takes both
back. zlib and the decoder of Poco are parameters.
-/

namespace Owls

namespace Utils

def kEncodeLookup : List Char :=
  "ABCDEFGHIJKLMNOPQRSTUVWXYZabcdefghijklmnopqrstuvwxyz0123456789+/".toList

def kPadCharacter : Char := '='

def encodeLookup (i : UInt32) : Char := kEncodeLookup.getD i.toNat (Char.ofNat 0)

/-- The loop over the groups of three bytes, and the `switch` after it. -/
def encodeGroups : List UInt8 → List Char
  | [] => []
  | [a] =>
    let temp := a.toUInt32 <<< 16
    [encodeLookup ((temp &&& 0x00FC0000) >>> 18), encodeLookup ((temp &&& 0x0003F000) >>> 12),
      kPadCharacter, kPadCharacter]
  | [a, b] =>
    let temp := a.toUInt32 <<< 16 + b.toUInt32 <<< 8
    [encodeLookup ((temp &&& 0x00FC0000) >>> 18), encodeLookup ((temp &&& 0x0003F000) >>> 12),
      encodeLookup ((temp &&& 0x00000FC0) >>> 6), kPadCharacter]
  | a :: b :: c :: rest =>
    let temp := a.toUInt32 <<< 16 + b.toUInt32 <<< 8 + c.toUInt32
    encodeLookup ((temp &&& 0x00FC0000) >>> 18) :: encodeLookup ((temp &&& 0x0003F000) >>> 12) ::
      encodeLookup ((temp &&& 0x00000FC0) >>> 6) :: encodeLookup (temp &&& 0x0000003F) ::
        encodeGroups rest

def base64encode (input : List UInt8) (size : UInt32) : List Char :=
  encodeGroups (input.take size.toNat)

end Utils

/-- What `uncompress` gives: the bytes that it has written on `Z_OK`, `Z_BUF_ERROR`, or another
error. -/
inductive Uncompressed where
  | ok (out : List UInt8)
  | bufError | error
deriving DecidableEq

/-- Both functions get the size of their buffer. `compress` is `none` where it fails. -/
structure Zlib where
  compress : Nat → List UInt8 → Option (List UInt8)
  uncompress : Nat → List UInt8 → Uncompressed

/-- The documented behaviour: a stream fits into the buffer and starts with a header, and it
gives its text back when there is room. -/
structure Zlib.Inverts (z : Zlib) : Prop where
  room : ∀ {size text stream}, z.compress size text = some stream → stream.length ≤ size
  header : ∀ {size text stream}, z.compress size text = some stream → stream ≠ []
  uncompress : ∀ {size text stream size'}, z.compress size text = some stream →
    text.length ≤ size' → z.uncompress size' stream = .ok text

structure StateParams where
  compress64 : List Char
  compressSz : UInt64

/-- The parameters of a state message, where `compress` does not fail. -/
def OWLSClientEvents.stateParams (z : Zlib) (text : List UInt8) : Option StateParams :=
  let bufSize : UInt64 := .ofNat text.length + 4000
  (z.compress bufSize.toNat text).map fun buffer =>
    { compress64 := Utils.base64encode buffer (.ofNat buffer.length)
      compressSz := .ofNat text.length }

namespace Utils

/-- `overrun`: the NUL is written past the end of the buffer. -/
inductive Extracted where
  | data (text : List UInt8)
  | failed | overrun
deriving DecidableEq

def cString (buffer : List UInt8) : List UInt8 := buffer.takeWhile (· ≠ 0)

def extractLoop (z : Zlib) (stream : List UInt8) (factor : Nat) (maxSize : UInt64) : Extracted :=
  match z.uncompress maxSize.toNat stream with
  | .ok out =>
    if out.length < maxSize.toNat then
      let buffer := out ++ List.replicate (maxSize.toNat - out.length) 0
      .data (cString (buffer.set out.length 0))
    else .overrun
  | .bufError =>
    if factor < 300 then
      extractLoop z stream (factor + 10) (.ofNat stream.length * .ofNat (factor + 10))
    else .failed
  | .error => .failed
termination_by 300 - factor

def extractBase64CompressedData (z : Zlib) (decoder : List Char → List UInt8)
    (compressedData : List Char) (compressSz : UInt64) : Extracted :=
  let stream := decoder compressedData
  extractLoop z stream 20 (if compressSz ≠ 0 then compressSz + 5000 else .ofNat stream.length * 20)

/-! ## The encoder -/

theorem sextet (temp k : UInt32) (hk : k.toNat ≤ 18) :
    ((temp &&& 63 <<< k) >>> k).toNat = temp.toNat / 2 ^ k.toNat % 64 := by
  have hpow : 2 ^ k.toNat ≤ 2 ^ 18 := Nat.pow_le_pow_right (by decide) hk
  have hmask : (63 <<< k : UInt32).toNat = 63 <<< k.toNat := by
    rw [UInt32.toNat_shiftLeft, Nat.mod_eq_of_lt (by omega : k.toNat < 32), Nat.shiftLeft_eq,
      Nat.shiftLeft_eq]
    exact Nat.mod_eq_of_lt (by change 63 * _ < _; omega)
  rw [UInt32.toNat_shiftRight, UInt32.toNat_and, hmask, Nat.mod_eq_of_lt (by omega : k.toNat < 32),
    Nat.shiftRight_and_distrib, Nat.shiftLeft_shiftRight, Nat.shiftRight_eq_div_pow]
  exact Nat.and_two_pow_sub_one_eq_mod _ 6

theorem encodeLookup_eq {i : UInt32} {n : Nat} (hi : i.toNat = n) (hn : n < 64) :
    encodeLookup i = Base64.digit n := by
  have hlength : Base64.alphabet.length = 64 := by decide
  have hlt : n < Base64.alphabet.length := by rw [hlength]; exact hn
  change Base64.alphabet.getD i.toNat _ = Base64.alphabet.getD n _
  rw [hi, List.getD_eq_getElem?_getD, List.getD_eq_getElem?_getD, List.getElem?_eq_getElem hlt]
  rfl

theorem group_toNat (a b c : UInt8) :
    (a.toUInt32 <<< 16 + b.toUInt32 <<< 8 + c.toUInt32).toNat =
      a.toNat * 65536 + b.toNat * 256 + c.toNat := by
  have ha := a.toNat_lt
  have hb := b.toNat_lt
  have hc := c.toNat_lt
  simp only [UInt32.toNat_add, UInt32.toNat_shiftLeft, UInt8.toNat_toUInt32, Nat.shiftLeft_eq]
  change ((a.toNat * 2 ^ 16 % 2 ^ 32 + b.toNat * 2 ^ 8 % 2 ^ 32) % 2 ^ 32 + c.toNat) % 2 ^ 32 = _
  omega

theorem lookups {temp : UInt32} {a b c : Nat} (htemp : temp.toNat = a * 65536 + b * 256 + c)
    (ha : a < 256) (hb : b < 256) (hc : c < 256) :
    encodeLookup ((temp &&& 0x00FC0000) >>> 18) = Base64.digit (a / 4) ∧
      encodeLookup ((temp &&& 0x0003F000) >>> 12) = Base64.digit (a % 4 * 16 + b / 16) ∧
      encodeLookup ((temp &&& 0x00000FC0) >>> 6) = Base64.digit (b % 16 * 4 + c / 64) ∧
      encodeLookup (temp &&& 0x0000003F) = Base64.digit (c % 64) := by
  have h18 := sextet temp 18 (by decide)
  have h12 := sextet temp 12 (by decide)
  have h6 := sextet temp 6 (by decide)
  have h0 : (temp &&& 0x0000003F).toNat = temp.toNat % 64 := by
    rw [UInt32.toNat_and]
    exact Nat.and_two_pow_sub_one_eq_mod _ 6
  rw [htemp] at h18 h12 h6 h0
  refine ⟨encodeLookup_eq (h18.trans ?_) (by omega), encodeLookup_eq (h12.trans ?_) (by omega),
    encodeLookup_eq (h6.trans ?_) (by omega), encodeLookup_eq (h0.trans ?_) (by omega)⟩
  · change _ / 2 ^ 18 % 64 = _
    omega
  · change _ / 2 ^ 12 % 64 = _
    omega
  · change _ / 2 ^ 6 % 64 = _
    omega
  · omega

theorem pair_toNat (a b : UInt8) : (a.toUInt32 <<< 16 + b.toUInt32 <<< 8).toNat =
    a.toNat * 65536 + b.toNat * 256 + 0 := by
  have hzero : (0 : UInt8).toUInt32 = 0 := by decide
  have hgroup := group_toNat a b 0
  rw [hzero, UInt32.add_zero, UInt8.toNat_zero] at hgroup
  exact hgroup

theorem one_toNat (a : UInt8) :
    (a.toUInt32 <<< 16).toNat = a.toNat * 65536 + 0 * 256 + 0 := by
  have hzero : (0 : UInt8).toUInt32 = 0 := by decide
  have hpair := pair_toNat a 0
  rw [hzero, UInt32.zero_shiftLeft, UInt32.add_zero, UInt8.toNat_zero] at hpair
  exact hpair

theorem encodeGroups_eq (bytes : List UInt8) : encodeGroups bytes = Base64.encode bytes := by
  induction bytes using Base64.encode.induct with
  | case1 => rfl
  | case2 a =>
    obtain ⟨hfirst, hsecond, -⟩ := lookups (one_toNat a) a.toNat_lt (by decide) (by decide)
    rw [Nat.zero_div, Nat.add_zero] at hsecond
    simp only [encodeGroups, Base64.encode, hfirst, hsecond, kPadCharacter]
  | case3 a b =>
    obtain ⟨hfirst, hsecond, hthird, -⟩ :=
      lookups (pair_toNat a b) a.toNat_lt b.toNat_lt (by decide)
    rw [Nat.zero_div, Nat.add_zero] at hthird
    simp only [encodeGroups, Base64.encode, hfirst, hsecond, hthird, kPadCharacter]
  | case4 a b c rest ih =>
    obtain ⟨hfirst, hsecond, hthird, hfourth⟩ :=
      lookups (group_toNat a b c) a.toNat_lt b.toNat_lt c.toNat_lt
    simp only [encodeGroups, Base64.encode, hfirst, hsecond, hthird, hfourth, ih]

theorem base64encode_eq {input : List UInt8} (h : input.length < 2 ^ 32) :
    base64encode input (.ofNat input.length) = Base64.encode input := by
  rw [base64encode, encodeGroups_eq, UInt32.toNat_ofNat', Nat.mod_eq_of_lt h, List.take_length]

/-! ## Both ways -/

theorem cString_terminated {text : List UInt8} (hnul : 0 ∉ text) (n : Nat) :
    cString ((text ++ List.replicate (n + 1) 0).set text.length 0) = text := by
  have hall : ∀ a ∈ text, decide (a ≠ 0) = true := by
    intro a ha
    exact decide_eq_true fun hzero => hnul (hzero ▸ ha)
  rw [List.set_append_right _ _ le_rfl, Nat.sub_self, List.replicate_succ, List.set_cons_zero,
    cString, List.takeWhile_append_of_pos hall]
  simp

theorem extractLoop_eq {z : Zlib} {stream text : List UInt8} {maxSize : UInt64} (hnul : 0 ∉ text)
    (hroom : text.length < maxSize.toNat)
    (hout : z.uncompress maxSize.toNat stream = .ok text) (factor : Nat) :
    extractLoop z stream factor maxSize = .data text := by
  obtain ⟨n, hn⟩ := Nat.exists_eq_add_of_lt hroom
  have hsub : maxSize.toNat - text.length = n + 1 := by omega
  rw [extractLoop, hout]
  simp only [if_pos hroom, hsub, cString_terminated hnul]

theorem maxSize_room {n m : Nat} (hn : n < 2 ^ 31) (hm : 0 < m) (hlt : m < 2 ^ 32) :
    n < (if UInt64.ofNat n ≠ 0 then UInt64.ofNat n + 5000 else .ofNat m * 20).toNat := by
  have hsize : (UInt64.ofNat n).toNat = n :=
    UInt64.toNat_ofNat_of_lt' (Nat.lt_trans hn (by decide))
  have hstream : (UInt64.ofNat m).toNat = m :=
    UInt64.toNat_ofNat_of_lt' (Nat.lt_trans hlt (by decide))
  by_cases hzero : UInt64.ofNat n = 0
  · rw [if_neg (not_not.mpr hzero)]
    rw [hzero, UInt64.toNat_zero] at hsize
    simp only [UInt64.toNat_mul, hstream, UInt64.reduceToNat]
    rw [Nat.mod_eq_of_lt (by omega)]
    omega
  · rw [if_pos hzero]
    simp only [UInt64.toNat_add, hsize, UInt64.reduceToNat]
    omega

theorem stateParams_decoded {z : Zlib} (hz : z.Inverts) {decoder : List Char → List UInt8}
    (hdecoder : ∀ s bytes, Base64.decode? s = some bytes → decoder s = bytes)
    {text : List UInt8} (hlength : text.length < 2 ^ 31) {params : StateParams}
    (hparams : OWLSClientEvents.stateParams z text = some params) :
    ∃ size, z.compress size text = some (decoder params.compress64) ∧
      params.compressSz = .ofNat text.length ∧ 0 < (decoder params.compress64).length ∧
      (decoder params.compress64).length < 2 ^ 32 := by
  obtain ⟨stream, hstream, rfl⟩ := Option.map_eq_some_iff.mp hparams
  have hbuffer : (UInt64.ofNat text.length + 4000).toNat = text.length + 4000 := by
    have hsize : (UInt64.ofNat text.length).toNat = text.length :=
      UInt64.toNat_ofNat_of_lt' (Nat.lt_trans hlength (by decide))
    simp only [UInt64.toNat_add, hsize, UInt64.reduceToNat]
    omega
  have hlt : stream.length < 2 ^ 32 := by
    have hroom := hz.room hstream
    omega
  have hdecoded : decoder (base64encode stream (.ofNat stream.length)) = stream := by
    rw [base64encode_eq hlt]
    exact hdecoder _ _ (Base64.decode?_encode stream)
  rw [hdecoded]
  exact ⟨_, hstream, rfl, List.length_pos_iff.mpr (hz.header hstream), hlt⟩

/-- What `State` sends is what is extracted. -/
theorem extracts_state (z : Zlib) (hz : z.Inverts) (decoder : List Char → List UInt8)
    (hdecoder : ∀ s bytes, Base64.decode? s = some bytes → decoder s = bytes)
    (text : List UInt8) (hnul : 0 ∉ text) (hlength : text.length < 2 ^ 31) (params : StateParams)
    (hparams : OWLSClientEvents.stateParams z text = some params) :
    extractBase64CompressedData z decoder params.compress64 params.compressSz = .data text := by
  obtain ⟨size, hstream, hsz, hpos, hlt⟩ := stateParams_decoded hz hdecoder hlength hparams
  have hroom := maxSize_room hlength hpos hlt
  rw [hsz]
  exact extractLoop_eq hnul hroom (hz.uncompress hstream hroom.le) 20

def braces : List UInt8 := [123, 125]

/-- What zlib makes of an empty object. Other texts are only marked. -/
def bracesStream : List UInt8 := [120, 156, 171, 174, 5, 0, 1, 117, 0, 249]

def sampleZlib : Zlib where
  compress size text :=
    if text = braces then if 10 ≤ size then some bracesStream else none
    else if text.length < size then some (0 :: text) else none
  uncompress size stream :=
    if stream = bracesStream then if 2 ≤ size then .ok braces else .bufError
    else
      match stream with
      | 0 :: text => if text.length ≤ size then .ok text else .bufError
      | _ => .error

theorem sampleZlib_cases {size : Nat} {text stream : List UInt8}
    (h : sampleZlib.compress size text = some stream) :
    (text = braces ∧ 10 ≤ size ∧ stream = bracesStream) ∨
      (text.length < size ∧ stream = 0 :: text) := by
  simp only [sampleZlib] at h
  split at h
  · rename_i htext
    obtain ⟨hsize, hstream⟩ := Option.ite_none_right_eq_some.mp h
    exact .inl ⟨htext, hsize, (Option.some.inj hstream).symm⟩
  · obtain ⟨hsize, hstream⟩ := Option.ite_none_right_eq_some.mp h
    exact .inr ⟨hsize, (Option.some.inj hstream).symm⟩

theorem sampleZlib_inverts : sampleZlib.Inverts where
  room {size text stream} h := by
    obtain ⟨-, hsize, rfl⟩ | ⟨hsize, rfl⟩ := sampleZlib_cases h
    · exact hsize
    · exact hsize
  header {size text stream} h := by
    obtain ⟨-, -, rfl⟩ | ⟨-, rfl⟩ := sampleZlib_cases h
    · decide
    · exact List.cons_ne_nil _ _
  uncompress {size text stream size'} h hle := by
    obtain ⟨rfl, -, rfl⟩ | ⟨-, rfl⟩ := sampleZlib_cases h
    · exact if_pos hle
    · have hne : (0 :: text) ≠ bracesStream := fun heq => absurd (List.cons.inj heq).1 (by decide)
      simp only [sampleZlib, if_neg hne, if_pos hle]

theorem extracts_state_braces : ∃ params,
    OWLSClientEvents.stateParams sampleZlib braces = some params ∧
      extractBase64CompressedData sampleZlib (fun s => (Base64.decode? s).getD [])
        params.compress64 params.compressSz = .data braces := by
  obtain ⟨params, hparams⟩ : ∃ params,
      OWLSClientEvents.stateParams sampleZlib braces = some params := ⟨_, rfl⟩
  refine ⟨params, hparams, extracts_state sampleZlib sampleZlib_inverts _ ?_ braces (by decide)
    (by decide) params hparams⟩
  intro s bytes hs
  rw [hs, Option.getD_some]

end Utils

end Owls
