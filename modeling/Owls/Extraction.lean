import Owls.Compression

/-!
# The buffer of an extraction

`ExtractBase64CompressedData` with its buffers: each use of an element is checked against the
size of its vector, and a vector may not be had.
-/

namespace Owls.Utils

/-- `empty`: an element of an empty vector. `beyond`: a byte past the end. -/
inductive Misuse
  | empty
  | beyond
deriving DecidableEq

/-- How the call ends. `thrown`: the constructor of a vector has thrown. -/
inductive Extraction
  | text (t : List UInt8)
  | failed
  | thrown
deriving DecidableEq

namespace Checked

/-- `&b[0]`. -/
def start (b : List UInt8) : Except Misuse Unit := if b = [] then .error .empty else .ok ()

def store (b : List UInt8) (i : Nat) (v : UInt8) : Except Misuse (List UInt8) :=
  if i < b.length then .ok (b.set i v) else .error .beyond

/-- What `uncompress` leaves of the buffer. -/
def fill (b out : List UInt8) : Except Misuse (List UInt8) :=
  if out.length ≤ b.length then .ok (out ++ b.drop out.length) else .error .beyond

/-- The string is read up to its NUL. -/
def readString (b : List UInt8) : Except Misuse (List UInt8) :=
  if 0 ∈ b then .ok (cString b) else .error .beyond

variable (z : Zlib) (room : Nat → Bool) (stream : List UInt8)

/-- The `Z_OK` branch. -/
def finish (buffer out : List UInt8) : Except Misuse Extraction := do
  let buffer ← fill buffer out
  let buffer ← store buffer out.length 0
  let text ← readString buffer
  .ok (.text text)

def extractLoop (factor : Nat) (maxSize : UInt64) : Except Misuse Extraction :=
  if room maxSize.toNat then do
    let buffer := List.replicate maxSize.toNat 0
    start buffer
    match z.uncompress maxSize.toNat stream with
    | .ok out => finish buffer out
    | .bufError =>
      if factor < 300 then
        extractLoop (factor + 10) (.ofNat stream.length * .ofNat (factor + 10))
      else .ok .failed
    | .error => .ok .failed
  else .ok .thrown
termination_by 300 - factor

def extractBase64CompressedData (decoder : List Char → List UInt8) (compressedData : List Char)
    (compressSz : UInt64) : Except Misuse Extraction :=
  let stream := decoder compressedData
  extractLoop z room stream 20
    (if compressSz ≠ 0 then compressSz + 5000 else .ofNat stream.length * 20)

end Checked

/-! ## One attempt -/

variable {z : Zlib} {room : Nat → Bool} {stream buffer out : List UInt8} {size : UInt64}

theorem Checked.start_replicate :
    Checked.start (List.replicate size.toNat 0) = if size = 0 then .error .empty else .ok () := by
  have hempty : List.replicate size.toNat (0 : UInt8) = [] ↔ size = 0 := by
    rw [List.replicate_eq_nil_iff, ← UInt64.toNat_inj]
    rfl
  rw [Checked.start]
  exact if_congr hempty rfl rfl

theorem mem_store (h : out.length < buffer.length) :
    0 ∈ (out ++ buffer.drop out.length).set out.length 0 := by
  have hlength : out.length < (out ++ buffer.drop out.length).length := by
    rw [List.length_append, List.length_drop]
    omega
  exact List.mem_set hlength 0

theorem Checked.finish_eq :
    Checked.finish buffer out =
      if out.length < buffer.length then
        .ok (.text (cString ((out ++ buffer.drop out.length).set out.length 0)))
      else .error .beyond := by
  rw [Checked.finish, Checked.fill]
  rcases Nat.lt_trichotomy out.length buffer.length with hlt | heq | hgt
  · have hlength : out.length < (out ++ buffer.drop out.length).length := by
      rw [List.length_append, List.length_drop]
      omega
    rw [if_pos hlt.le, if_pos hlt]
    simp only [bind, Except.bind, Checked.store, if_pos hlength, Checked.readString,
      if_pos (mem_store hlt)]
  · have hlength : ¬ out.length < (out ++ buffer.drop out.length).length := by
      rw [List.length_append, List.length_drop]
      omega
    rw [if_pos heq.le, if_neg heq.not_lt]
    simp only [bind, Except.bind, Checked.store, if_neg hlength]
  · rw [if_neg (by omega), if_neg (by omega)]
    rfl

/-! ## The attempts in a row -/

/-- The sizes of the buffers: the factors after the first are 30 to 300. -/
def bufferSizes (stream : List UInt8) (compressSz : UInt64) : List UInt64 :=
  (if compressSz ≠ 0 then compressSz + 5000 else .ofNat stream.length * 20) ::
    (List.range' 30 28 10).map fun factor => .ofNat stream.length * .ofNat factor

def tryAll (z : Zlib) (room : Nat → Bool) (stream : List UInt8) :
    List UInt64 → Except Misuse Extraction
  | [] => .ok .failed
  | size :: sizes =>
    if room size.toNat then
      if size = 0 then .error .empty
      else
        match z.uncompress size.toNat stream with
        | .ok out => Checked.finish (List.replicate size.toNat 0) out
        | .bufError => tryAll z room stream sizes
        | .error => .ok .failed
    else .ok .thrown

theorem Checked.extractLoop_eq (factor : Nat) :
    Checked.extractLoop z room stream factor size =
      if room size.toNat then
        if size = 0 then .error .empty
        else
          match z.uncompress size.toNat stream with
          | .ok out => Checked.finish (List.replicate size.toNat 0) out
          | .bufError =>
            if factor < 300 then
              Checked.extractLoop z room stream (factor + 10)
                (.ofNat stream.length * .ofNat (factor + 10))
            else .ok .failed
          | .error => .ok .failed
      else .ok .thrown := by
  rw [Checked.extractLoop]
  by_cases hsize : size = 0
  · simp only [Checked.start_replicate, if_pos hsize]
    rfl
  · simp only [Checked.start_replicate, if_neg hsize]
    rfl

theorem extractLoop_eq_tryAll (m : Nat) {factor : Nat} (h : factor + 10 * m = 300) :
    Checked.extractLoop z room stream factor size =
      tryAll z room stream (size :: (List.range' (factor + 10) m 10).map fun factor =>
        .ofNat stream.length * .ofNat factor) := by
  induction m generalizing factor size with
  | zero =>
    have hlast : ¬ factor < 300 := by omega
    rw [Checked.extractLoop_eq, if_neg hlast]
    rfl
  | succ m ih =>
    have hnext : factor < 300 := by omega
    rw [Checked.extractLoop_eq, if_pos hnext, ih (by omega), List.range'_succ, List.map_cons]
    rfl

theorem extract_eq_tryAll (decoder : List Char → List UInt8) (compressedData : List Char)
    (compressSz : UInt64) :
    Checked.extractBase64CompressedData z room decoder compressedData compressSz =
      tryAll z room (decoder compressedData) (bufferSizes (decoder compressedData) compressSz) :=
  extractLoop_eq_tryAll 28 rfl

/-! ## A byte to spare -/

/-- Each buffer that is tried has an element, and a text does not fill it. A buffer is tried when
all before it were too small. -/
def Spare (z : Zlib) (room : Nat → Bool) (stream : List UInt8) (sizes : List UInt64) : Prop :=
  ∀ before size after, sizes = before ++ size :: after →
    (∀ s ∈ before, room s.toNat ∧ z.uncompress s.toNat stream = .bufError) → room size.toNat →
    size ≠ 0 ∧ ∀ out, z.uncompress size.toNat stream = .ok out → out.length ≠ size.toNat

theorem spare_cons {sizes : List UInt64} :
    Spare z room stream (size :: sizes) ↔
      (room size.toNat →
        (size ≠ 0 ∧ ∀ out, z.uncompress size.toNat stream = .ok out → out.length ≠ size.toNat) ∧
          (z.uncompress size.toNat stream = .bufError → Spare z room stream sizes)) := by
  constructor
  · intro h hroom
    refine ⟨h [] size sizes rfl (List.forall_mem_nil _) hroom, ?_⟩
    rintro hsmall before size' after rfl hbefore
    exact h (size :: before) size' after rfl (List.forall_mem_cons.mpr ⟨⟨hroom, hsmall⟩, hbefore⟩)
  · rintro h (_ | ⟨first, before⟩) size' after heq hbefore hroom
    · obtain ⟨rfl, -⟩ := List.cons.inj heq
      exact (h hroom).1
    · obtain ⟨rfl, rfl⟩ := List.cons.inj heq
      obtain ⟨⟨hfirst, hsmall⟩, hrest⟩ := List.forall_mem_cons.mp hbefore
      exact (h hfirst).2 hsmall before size' after rfl hrest hroom

theorem tryAll_ends_iff (sizes : List UInt64)
    (hz : ∀ size out, z.uncompress size stream = .ok out → out.length ≤ size) :
    (∃ ending, tryAll z room stream sizes = .ok ending) ↔ Spare z room stream sizes := by
  induction sizes with
  | nil =>
    refine iff_of_true ⟨.failed, rfl⟩ fun before size after heq => ?_
    exact absurd heq.symm (List.append_ne_nil_of_right_ne_nil _ (List.cons_ne_nil _ _))
  | cons size sizes ih =>
    rw [spare_cons, tryAll]
    by_cases hroom : room size.toNat = true
    · rw [if_pos hroom, forall_prop_of_true hroom]
      by_cases hsize : size = 0
      · rw [if_pos hsize]
        refine iff_of_false ?_ fun h => h.1.1 hsize
        rintro ⟨ending, h⟩
        cases h
      rw [if_neg hsize]
      cases hout : z.uncompress size.toNat stream with
      | ok out =>
        have hle := hz _ _ hout
        simp only [Checked.finish_eq, List.length_replicate, Uncompressed.ok.injEq, forall_eq',
          reduceCtorEq, false_implies, and_true, ne_eq, hsize, not_false_eq_true, true_and]
        split
        · exact iff_of_true ⟨_, rfl⟩ (by omega)
        · refine iff_of_false ?_ (by omega)
          rintro ⟨ending, h⟩
          cases h
      | bufError => simpa [hsize] using ih
      | error => simp [hsize]
    · rw [if_neg hroom]
      exact iff_of_true ⟨.thrown, rfl⟩ fun h => absurd h hroom

/-- The call ends, and no use of a buffer leaves it, where one byte of every buffer is spare. -/
theorem extraction_in_bounds_iff (z : Zlib) (room : Nat → Bool) (decoder : List Char → List UInt8)
    (compressedData : List Char) (compressSz : UInt64)
    (hz : ∀ size stream out, z.uncompress size stream = .ok out → out.length ≤ size) :
    (∃ ending, Checked.extractBase64CompressedData z room decoder compressedData compressSz =
        .ok ending) ↔
      Spare z room (decoder compressedData)
        (bufferSizes (decoder compressedData) compressSz) := by
  rw [extract_eq_tryAll]
  exact tryAll_ends_iff _ fun size out => hz size _ out

theorem spare_of_first {sizes : List UInt64} {text : List UInt8}
    (hroom : text.length < size.toNat) (hout : z.uncompress size.toNat stream = .ok text) :
    Spare z room stream (size :: sizes) := by
  refine spare_cons.mpr fun _ => ⟨⟨?_, fun out hout' => ?_⟩, fun hsmall => ?_⟩
  · rintro rfl
    exact absurd hroom (Nat.not_lt_zero _)
  · rw [hout] at hout'
    rw [← Uncompressed.ok.inj hout']
    exact hroom.ne
  · rw [hout] at hsmall
    cases hsmall

theorem spare_state (hz : z.Inverts) {decoder : List Char → List UInt8}
    (hdecoder : ∀ s bytes, Base64.decode? s = some bytes → decoder s = bytes)
    {text : List UInt8} (hlength : text.length < 2 ^ 31) {params : StateParams}
    (hparams : OWLSClientEvents.stateParams z text = some params) :
    Spare z room (decoder params.compress64)
      (bufferSizes (decoder params.compress64) params.compressSz) := by
  obtain ⟨size, hstream, hsz, hpos, hlt⟩ := stateParams_decoded hz hdecoder hlength hparams
  have hroom := maxSize_room hlength hpos hlt
  rw [hsz]
  exact spare_of_first hroom (hz.uncompress hstream hroom.le)

/-! ## The same result -/

def Extraction.plain : Extraction → Option Extracted
  | .text t => some (.data t)
  | .failed => some .failed
  | .thrown => none

theorem attempted {factor : Nat} {ending : Extraction} {e : Extracted}
    (h : Checked.extractLoop z room stream factor size = .ok ending) (he : ending.plain = some e) :
    room size.toNat ∧ size ≠ 0 := by
  rw [Checked.extractLoop_eq] at h
  by_cases hroom : room size.toNat = true
  · rw [if_pos hroom] at h
    refine ⟨hroom, fun hsize => ?_⟩
    rw [if_pos hsize] at h
    cases h
  · rw [if_neg hroom] at h
    rw [← Except.ok.inj h] at he
    cases he

theorem extractLoop_agrees {factor : Nat} {ending : Extraction} {e : Extracted}
    (h : Checked.extractLoop z room stream factor size = .ok ending) (he : ending.plain = some e) :
    extractLoop z stream factor size = e := by
  obtain ⟨hroom, hsize⟩ := attempted h he
  rw [Checked.extractLoop_eq, if_pos hroom, if_neg hsize] at h
  fun_induction extractLoop z stream factor size with
  | case1 factor size out hout hlt =>
    simp only [hout, Checked.finish_eq, List.length_replicate, if_pos hlt,
      List.drop_replicate] at h
    rw [← Except.ok.inj h] at he
    exact Option.some.inj he
  | case2 factor size out hout hlt =>
    simp only [hout, Checked.finish_eq, List.length_replicate, if_neg hlt] at h
    cases h
  | case3 factor size hout hlt ih =>
    simp only [hout, if_pos hlt] at h
    obtain ⟨hroom', hsize'⟩ := attempted h he
    rw [Checked.extractLoop_eq, if_pos hroom', if_neg hsize'] at h
    exact ih h hroom' hsize'
  | case4 factor size hout hlt =>
    simp only [hout, if_neg hlt] at h
    rw [← Except.ok.inj h] at he
    exact Option.some.inj he
  | case5 factor size hout =>
    simp only [hout] at h
    rw [← Except.ok.inj h] at he
    exact Option.some.inj he

/-! ## A text that fills its buffer -/

def manyAs : List UInt8 := List.replicate 240 97

def manyAsStream : List UInt8 := [120, 156, 75, 76, 28, 89, 0, 0, 209, 94, 90, 241]

/-- zlib on one text. Other streams are refused. -/
def manyAsZlib : Zlib where
  compress size text := if text = manyAs ∧ 12 ≤ size then some manyAsStream else none
  uncompress size stream :=
    if stream = manyAsStream then if 240 ≤ size then .ok manyAs else .bufError else .error

theorem manyAsZlib_bounded (size : Nat) (stream out : List UInt8)
    (h : manyAsZlib.uncompress size stream = .ok out) : out.length ≤ size := by
  simp only [manyAsZlib] at h
  split_ifs at h with hstream hsize
  rw [← Uncompressed.ok.inj h]
  exact hsize

def poco64 (s : List Char) : List UInt8 := (Base64.decode? s).getD []

/-- The largest vector. -/
def vectorRoom (n : Nat) : Bool := n < 2 ^ 63

theorem extraction_in_bounds_iff_as :
    (∃ ending, Checked.extractBase64CompressedData manyAsZlib vectorRoom poco64
        "eJxLTBxZAADRXlrx".toList 240 = .ok ending) ↔
      Spare manyAsZlib vectorRoom (poco64 "eJxLTBxZAADRXlrx".toList)
        (bufferSizes (poco64 "eJxLTBxZAADRXlrx".toList) 240) :=
  extraction_in_bounds_iff manyAsZlib vectorRoom poco64 "eJxLTBxZAADRXlrx".toList 240
    manyAsZlib_bounded

/-- Twelve bytes that are 240, and no size with them. -/
theorem full_buffer_overrun :
    ¬ ∀ (z : Zlib) (room : Nat → Bool) (decoder : List Char → List UInt8)
      (compressedData : List Char) (compressSz : UInt64),
      (∀ size stream out, z.uncompress size stream = .ok out → out.length ≤ size) →
      ∃ ending, Checked.extractBase64CompressedData z room decoder compressedData compressSz =
        .ok ending := by
  intro h
  obtain ⟨ending, hending⟩ := h manyAsZlib vectorRoom poco64 "eJxLTBxZAADRXlrx".toList 0
    manyAsZlib_bounded
  have hstream : poco64 "eJxLTBxZAADRXlrx".toList = manyAsStream := by decide +kernel
  have hbeyond : tryAll manyAsZlib vectorRoom manyAsStream (bufferSizes manyAsStream 0) =
      .error .beyond := by
    decide +kernel
  rw [extract_eq_tryAll, hstream, hbeyond] at hending
  cases hending

end Owls.Utils
