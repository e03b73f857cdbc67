import Mathlib.Data.List.TakeWhile
import Mathlib.Data.String.Basic
import Mathlib.Data.UInt
import Owls.Base.Digits
import Owls.Configuration

/-!
# Serial numbers and addresses

What `SimulationRunner::run` makes of a MAC prefix and a device number, and the addresses that a
device counts on from there. A `Char` stands for a byte.
-/

open Draw

namespace Owls

/-! ## The serial number of a device -/

/-- What `%s` prints. -/
def cString (s : String) : String := .ofList (s.toList.takeWhile (· ≠ '\x00'))

/-- `%s%05x0`, as much as a buffer of 32 bytes holds. -/
def SimulationRunner.serialNumber (macPrefix : String) (deviceNumber : UInt64) : String :=
  let printed := cString macPrefix ++ OWLSutils.hex 5 deviceNumber.toUInt32.toUInt64 ++ "0"
  .ofList (printed.toList.take 31)

namespace Utils

def macStep (result : UInt64) (c : Char) : UInt64 :=
  if c = ':' then result
  else (result <<< 4) + .ofNat ((hexDigit? c).getD 0)

def macToInt (mac : String) : UInt64 := mac.toList.foldl macStep 0

/-- Without a `0x` that a digit follows. -/
def withoutMark (cs : List Char) : List Char :=
  match cs with
  | '0' :: x :: d :: rest =>
    if (x = 'x' ∨ x = 'X') ∧ (hexDigit? d).isSome then d :: rest else cs
  | _ => cs

def afterHexDigits (cs : List Char) : List Char :=
  (withoutMark cs).dropWhile fun c => (hexDigit? c).isSome

/-- What `std::stoull(S, nullptr, 16)` leaves of the string. -/
def unparsed (s : String) : List Char :=
  match s.toList.dropWhile isSpace with
  | '-' :: cs | '+' :: cs => afterHexDigits cs
  | cs => afterHexDigits cs

def IsHex (cs : List Char) : Prop := ∀ c ∈ cs, (hexDigit? c).isSome

instance (cs : List Char) : Decidable (IsHex cs) :=
  List.decidableBAll (fun c => (hexDigit? c).isSome) cs

theorem reads_hexDigit : Digits.Reads 16 hexDigit? := by
  unfold Digits.Reads
  decide

variable {cs : List Char} {s : String} {n : UInt64}

/-! ## Reading -/

/-- The value of characters that are all hexadecimal digits. -/
def hexValue (cs : List Char) : Nat := Digits.value 16 (cs.filterMap hexDigit?)

theorem hexDigit_eq_some {c : Char} {d : Nat} (h : hexDigit? c = some d) :
    (d < 10 ∧ c.toNat = d + 48) ∨ (10 ≤ d ∧ d < 16 ∧ (c.toNat = d + 87 ∨ c.toNat = d + 55)) := by
  have hle (a b : Char) : a ≤ b ↔ a.toNat ≤ b.toNat := UInt32.le_iff_toNat_le
  simp only [hexDigit?, hle] at h
  split at h
  · cases h
    simp at *
    omega
  · split at h
    · cases h
      simp at *
      omega
    · split at h
      · cases h
        simp at *
        omega
      · cases h

theorem hexDigit_lt {c : Char} {d : Nat} (h : hexDigit? c = some d) : d < 16 := by
  rcases hexDigit_eq_some h with ⟨hd, -⟩ | ⟨-, hd, -⟩ <;> omega

theorem length_hexValues (h : IsHex cs) : (cs.filterMap hexDigit?).length = cs.length := by
  induction cs with
  | nil => rfl
  | cons c cs ih =>
    obtain ⟨d, hd⟩ := Option.isSome_iff_exists.mp (h c List.mem_cons_self)
    rw [List.filterMap_cons, hd, List.length_cons, List.length_cons,
      ih fun c hc => h c (List.mem_cons_of_mem _ hc)]

theorem hexValue_lt (h : IsHex cs) : hexValue cs < 16 ^ cs.length := by
  rw [← length_hexValues h]
  apply Digits.value_lt (by decide)
  intro d hd
  obtain ⟨c, -, hc⟩ := List.mem_filterMap.mp hd
  exact hexDigit_lt hc

theorem isSpace_of_hex {c : Char} (h : (hexDigit? c).isSome) : isSpace c = false := by
  obtain ⟨d, hd⟩ := Option.isSome_iff_exists.mp h
  have hrange := hexDigit_eq_some hd
  have hblank : c ≠ ' ' := by
    rintro rfl
    cases hd
  simp only [isSpace, hblank, decide_false, Bool.false_or, Bool.and_eq_false_iff,
    decide_eq_false_iff_not]
  omega

theorem dropWhile_isSpace (h : IsHex cs) : cs.dropWhile isSpace = cs := by
  cases cs with
  | nil => rfl
  | cons c cs =>
    have hc := isSpace_of_hex (h c List.mem_cons_self)
    exact List.dropWhile_cons_of_neg (by simp [hc])

theorem not_hex_of_mem (h : IsHex cs) : '-' ∉ cs ∧ '+' ∉ cs ∧ 'x' ∉ cs ∧ 'X' ∉ cs := by
  refine ⟨fun hc => ?_, fun hc => ?_, fun hc => ?_, fun hc => ?_⟩ <;>
    exact absurd (h _ hc) (by decide)

theorem withoutMark_of_hex (h : IsHex cs) : withoutMark cs = cs := by
  obtain ⟨-, -, hx, hX⟩ := not_hex_of_mem h
  unfold withoutMark
  split
  · rename_i x d rest
    rw [if_neg]
    rintro ⟨rfl | rfl, -⟩
    · exact hx (by simp)
    · exact hX (by simp)
  · rfl

theorem hexDigits_of_hex (h : IsHex cs) : hexDigits cs = cs.filterMap hexDigit? := by
  have hall : ∀ d ∈ cs.map hexDigit?, d.isSome := by simpa [IsHex] using h
  have hdigits : hexDigits cs =
    (((withoutMark cs).map hexDigit?).takeWhile Option.isSome).filterMap id := rfl
  rw [hdigits, withoutMark_of_hex h, List.takeWhile_eq_self_iff.mpr hall, List.filterMap_map]
  rfl

theorem unparsed_of_hex (h : IsHex s.toList) : unparsed s = [] := by
  obtain ⟨hminus, hplus, -⟩ := not_hex_of_mem h
  have hafter : afterHexDigits s.toList = [] := by
    rw [afterHexDigits, withoutMark_of_hex h]
    exact List.dropWhile_eq_nil_iff.mpr h
  unfold unparsed
  rw [dropWhile_isSpace h]
  split
  · rename_i heq
    exact absurd (by simp [heq]) hminus
  · rename_i heq
    exact absurd (by simp [heq]) hplus
  · exact hafter

theorem serialNumberToInt_of_hex (h : IsHex s.toList) (hne : s.toList ≠ [])
    (hlength : s.toList.length ≤ 16) :
    serialNumberToInt s = .ok (.ofNat (hexValue s.toList)) := by
  obtain ⟨hminus, hplus, -⟩ := not_hex_of_mem h
  have hlt : hexValue s.toList < UInt64.size :=
    Nat.lt_of_lt_of_le (hexValue_lt h) (Nat.pow_le_pow_right (by decide) hlength)
  have hvalues : s.toList.filterMap hexDigit? ≠ [] := by
    rw [← List.length_pos_iff, length_hexValues h]
    exact List.length_pos_iff.mpr hne
  have hof : ofHexDigits false (hexDigits s.toList) = .ok (.ofNat (hexValue s.toList)) := by
    rw [hexDigits_of_hex h, ofHexDigits, if_neg hvalues]
    exact if_pos hlt
  unfold serialNumberToInt
  rw [dropWhile_isSpace h]
  split
  · rename_i heq
    exact absurd (by simp [heq]) hminus
  · rename_i heq
    exact absurd (by simp [heq]) hplus
  · exact hof

theorem isHex_append {ds : List Char} : IsHex (cs ++ ds) ↔ IsHex cs ∧ IsHex ds :=
  List.forall_mem_append

theorem hexValue_append {ds : List Char} (h : IsHex ds) :
    hexValue (cs ++ ds) = hexValue cs * 16 ^ ds.length + hexValue ds := by
  rw [hexValue, List.filterMap_append, Digits.value_append, length_hexValues h]
  rfl

end Utils

/-! ## A serial number of twelve digits -/

open Utils

/-- The five digits of a device number. -/
def deviceDigits (n : UInt64) : List Char := (Nat.toDigits 16 n.toNat).leftpad 5 '0'

variable {p : String} {n : UInt64}

theorem isHex_deviceDigits (n : UInt64) : IsHex (deviceDigits n) :=
  (reads_hexDigit.leftpad (by decide) 5 n.toNat).1

theorem hexValue_deviceDigits (n : UInt64) : hexValue (deviceDigits n) = n.toNat :=
  (reads_hexDigit.leftpad (by decide) 5 n.toNat).2

theorem length_deviceDigits (h : n < 2 ^ 20) : (deviceDigits n).length = 5 := by
  have hlt : n.toNat < 16 ^ 5 := UInt64.lt_iff_toNat_lt.mp h
  exact Digits.length_leftpad_toDigits (by decide) (by decide) hlt

theorem serialNumber_toList (hp : p.toList.length = 6) (h : n < 2 ^ 20) :
    (SimulationRunner.serialNumber p n).toList =
      p.toList.takeWhile (· ≠ '\x00') ++ (deviceDigits n ++ ['0']) := by
  have hlt : n.toNat < 2 ^ 20 := UInt64.lt_iff_toNat_lt.mp h
  have hcast : n.toUInt32.toUInt64.toNat = n.toNat := by
    rw [UInt32.toNat_toUInt64, UInt64.toNat_toUInt32]
    omega
  have hshort : (p.toList.takeWhile (· ≠ '\x00') ++ (deviceDigits n ++ ['0'])).length ≤ 31 := by
    have hcut := (List.takeWhile_prefix (l := p.toList) (· ≠ '\x00')).length_le
    simp only [List.length_append, length_deviceDigits h, List.length_singleton]
    omega
  rw [← List.take_of_length_le hshort]
  unfold SimulationRunner.serialNumber cString OWLSutils.hex deviceDigits
  rw [hcast]
  simp

theorem isHex_tail (n : UInt64) : IsHex (deviceDigits n ++ ['0']) := by
  rw [isHex_append]
  exact ⟨isHex_deviceDigits n, by decide⟩

theorem takeWhile_of_hex (h : IsHex p.toList) : p.toList.takeWhile (· ≠ '\x00') = p.toList := by
  rw [List.takeWhile_eq_self_iff]
  intro c hc
  rw [decide_eq_true_eq]
  rintro rfl
  exact absurd (h _ hc) (by decide)

theorem serialNumber_of_hex (hlength : p.toList.length = 6) (hp : IsHex p.toList)
    (h : n < 2 ^ 20) :
    (SimulationRunner.serialNumber p n).toList = p.toList ++ (deviceDigits n ++ ['0']) := by
  rw [serialNumber_toList hlength h, takeWhile_of_hex hp]

theorem isHex_serialNumber (hlength : p.toList.length = 6) (hp : IsHex p.toList)
    (h : n < 2 ^ 20) : IsHex (SimulationRunner.serialNumber p n).toList := by
  rw [serialNumber_of_hex hlength hp h, isHex_append]
  exact ⟨hp, isHex_tail n⟩

theorem length_serialNumber (hlength : p.toList.length = 6) (hp : IsHex p.toList)
    (h : n < 2 ^ 20) : (SimulationRunner.serialNumber p n).toList.length = 12 := by
  rw [serialNumber_of_hex hlength hp h, List.length_append, List.length_append,
    length_deviceDigits h, hlength]
  rfl

theorem serialNumberToInt_serialNumber (hlength : p.toList.length = 6) (hp : IsHex p.toList)
    (h : n < 2 ^ 20) : serialNumberToInt (SimulationRunner.serialNumber p n) =
      .ok (.ofNat (hexValue (SimulationRunner.serialNumber p n).toList)) := by
  have htwelve := length_serialNumber hlength hp h
  have hne : (SimulationRunner.serialNumber p n).toList ≠ [] := by
    rw [← List.length_pos_iff]
    omega
  exact serialNumberToInt_of_hex (isHex_serialNumber hlength hp h) hne (by omega)

/-! ## Definitions -/

variable {d : SimulationDetails}

/-- What the parts of the program take a serial number for. -/
structure SerialSound (d : SimulationDetails) (n : UInt64) : Prop where
  digits : (SimulationRunner.serialNumber d.macPrefix n).toList.length = 12 ∧
    IsHex (SimulationRunner.serialNumber d.macPrefix n).toList
  parsed : ∃ m, serialNumberToInt (SimulationRunner.serialNumber d.macPrefix n) = .ok m
  whole : unparsed (SimulationRunner.serialNumber d.macPrefix n) = []
  /-- The constructor throws no exception. A remainder by zero is none. -/
  built : ∀ r e, OWLSclient.new d (SimulationRunner.serialNumber d.macPrefix n) r = .error e →
    e = .divisionByZero

theorem new_error {serial : String} {r : Entropy} {e : Failure}
    (hnumber : ∃ m, serialNumberToInt serial = .ok m)
    (h : OWLSclient.new d serial r = .error e) : e = .divisionByZero := by
  by_cases heq : d.minAssociations = d.maxAssociations ∨ d.minClients = d.maxClients
  · have hstops := OWLSclient.stops_new_of_eq hnumber heq r
    cases hstops.symm.trans h
    rfl
  · obtain ⟨hassociations, hclients⟩ := not_or.mp heq
    obtain ⟨c, t, hok, -⟩ := OWLSclient.returns_new_of_ne hnumber hassociations hclients r
    cases hok.symm.trans h

theorem device_lt (hvalid : validateSimulation d = true) (hn : n < d.devices) : n < 2 ^ 20 := by
  have hdevices := ((validateSimulation_iff d).mp hvalid).1.devices.2
  rw [UInt64.le_iff_toNat_le] at hdevices
  rw [UInt64.lt_iff_toNat_lt] at hn ⊢
  have hmax : (1000000 : UInt64).toNat = 1000000 := rfl
  have hpow : (2 ^ 20 : UInt64).toNat = 1048576 := rfl
  omega

/-- A valid definition gives serial numbers exactly when its prefix is hexadecimal. -/
theorem serialSound_iff (d : SimulationDetails) (n : UInt64) (hvalid : validateSimulation d = true)
    (hn : n < d.devices) : SerialSound d n ↔ IsHex d.macPrefix.toList := by
  have hlt := device_lt hvalid hn
  have hsize : d.macPrefix.toList.length = 6 := by
    rw [String.length_toList, ((validateSimulation_iff d).mp hvalid).1.macPrefix]
  constructor
  · intro h
    obtain ⟨hlength, hhex⟩ := h.digits
    rw [serialNumber_toList hsize hlt] at hlength hhex
    -- Twelve characters leave none of the six to a NUL.
    have hkept := List.takeWhile_append_dropWhile (p := (· ≠ '\x00')) (l := d.macPrefix.toList)
    have hcut := congrArg List.length hkept
    simp only [List.length_append, length_deviceDigits hlt, List.length_singleton] at hlength hcut
    have hdrop : d.macPrefix.toList.dropWhile (· ≠ '\x00') = [] := by
      apply List.eq_nil_of_length_eq_zero
      omega
    rw [hdrop, List.append_nil] at hkept
    rw [hkept, isHex_append] at hhex
    exact hhex.1
  · intro h
    have hhex := isHex_serialNumber hsize h hlt
    have hnumber := serialNumberToInt_serialNumber hsize h hlt
    exact ⟨⟨length_serialNumber hsize h hlt, hhex⟩, ⟨_, hnumber⟩, unparsed_of_hex hhex,
      fun r e he => new_error ⟨_, hnumber⟩ he⟩

theorem serialSound_sample : SerialSound OWLSclient.sampleDetails 0 :=
  (serialSound_iff OWLSclient.sampleDetails 0 (by decide) (by decide)).mpr (by decide)

/-- Six characters are enough for the check, whatever they are. -/
theorem prefix_not_hex :
    ¬ ∀ (d : SimulationDetails) (n : UInt64), validateSimulation d = true → n < d.devices →
      SerialSound d n := by
  intro h
  have hsound := h { OWLSclient.sampleDetails with macPrefix := "zzzzzz" } 0 (by decide) (by decide)
  have hhex := hsound.digits.2
  rw [serialNumber_toList (by decide) (by decide), isHex_append] at hhex
  exact absurd (hhex.1 'z' (by decide)) (by decide)

/-! ## The addresses of a device -/

/-- The serial number, and the fifteen BSSIDs that follow it. -/
def addresses (serial : String) : Except Failure (List String) := do
  let n ← serialNumberToInt serial
  return serial :: (List.range 15).map fun k =>
    serialToMAC (intToSerialNumber (n + .ofNat (k + 1)))

variable {cs : List Char} {s : String}

theorem foldl_macStep (h : ∀ c ∈ cs, c = ':' ∨ (hexDigit? c).isSome) (r : UInt64) :
    (cs.foldl macStep r).toNat =
      ((cs.filterMap hexDigit?).foldl (fun n d => 16 * n + d) r.toNat) % 2 ^ 64 := by
  induction cs generalizing r with
  | nil => exact (Nat.mod_eq_of_lt r.toNat_lt).symm
  | cons c cs ih =>
    rw [List.foldl_cons, ih fun c hc => h c (List.mem_cons_of_mem _ hc), List.filterMap_cons]
    by_cases hcolon : c = ':'
    · subst hcolon
      rfl
    · obtain ⟨d, hd⟩ := Option.isSome_iff_exists.mp ((h c List.mem_cons_self).resolve_left hcolon)
      have hlt := hexDigit_lt hd
      have hstep : (macStep r c).toNat = (16 * r.toNat + d) % 2 ^ 64 := by
        rw [macStep, if_neg hcolon, hd, UInt64.toNat_add, UInt64.toNat_shiftLeft,
          UInt64.toNat_ofNat']
        change (r.toNat <<< 4 % 2 ^ 64 + d % 2 ^ 64) % 2 ^ 64 = _
        rw [Nat.shiftLeft_eq]
        omega
      simp only [hd, hstep, List.foldl_cons]
      rw [Digits.foldl_eq_ofDigits, Digits.foldl_eq_ofDigits, Nat.add_mod, Nat.mod_mul_mod,
        ← Nat.add_mod]

theorem macToInt_toNat (h : ∀ c ∈ s.toList, c = ':' ∨ (hexDigit? c).isSome) :
    (macToInt s).toNat = hexValue s.toList % 2 ^ 64 := foldl_macStep h 0

theorem toList_serialToMAC (a b c d e f g h i j k l : Char) :
    (serialToMAC (.ofList [a, b, c, d, e, f, g, h, i, j, k, l])).toList =
      [a, b, ':', c, d, ':', e, f, ':', g, h, ':', i, j, ':', k, l] := by
  have hchunks : List.toChunks 2 [a, b, c, d, e, f, g, h, i, j, k, l] =
      [[a, b], [c, d], [e, f], [g, h], [i, j], [k, l]] := by
    simp [List.toChunks, List.toChunks.go]
  have hcolon : ":".toList = [':'] := by decide
  simp [serialToMAC, hchunks, hcolon]

theorem macToInt_serialToMAC (hlength : cs.length = 12) (h : IsHex cs) :
    (macToInt (serialToMAC (.ofList cs))).toNat = hexValue cs := by
  match cs, hlength with
  | [a, b, c, d, e, f, g, h', i, j, k, l], _ =>
    have hnone : hexDigit? ':' = none := by decide
    have hvalue : hexValue [a, b, ':', c, d, ':', e, f, ':', g, h', ':', i, j, ':', k, l] =
        hexValue [a, b, c, d, e, f, g, h', i, j, k, l] := by
      simp only [hexValue, List.filterMap_cons, hnone]
    have hlt := hexValue_lt h
    rw [macToInt_toNat, toList_serialToMAC, hvalue, Nat.mod_eq_of_lt]
    · exact Nat.lt_of_lt_of_le hlt (Nat.pow_le_pow_right (by decide) (by decide : 12 ≤ 16))
    · rw [toList_serialToMAC]
      simp only [List.forall_mem_cons, IsHex] at h ⊢
      simp [h]

/-- The twelve digits of a serial number. -/
def serialDigits (n : UInt64) : List Nat :=
  (List.range 12).reverse.map fun i => n.toNat / 16 ^ i % 16

theorem intToSerialNumber_eq (n : UInt64) :
    intToSerialNumber n = .ofList ((serialDigits n).map Nat.digitChar) := by
  rw [serialDigits, List.map_map]
  rfl

theorem length_serialDigits (n : UInt64) : (serialDigits n).length = 12 := by
  rw [serialDigits, List.length_map, List.length_reverse, List.length_range]

theorem serialDigits_lt {n : UInt64} {d : Nat} (h : d ∈ serialDigits n) : d < 16 := by
  obtain ⟨i, -, rfl⟩ := List.mem_map.mp h
  exact Nat.mod_lt _ (by decide)

theorem isHex_serialDigits (n : UInt64) : IsHex ((serialDigits n).map Nat.digitChar) := by
  intro c hc
  obtain ⟨d, hd, rfl⟩ := List.mem_map.mp hc
  rw [reads_hexDigit d (serialDigits_lt hd)]
  rfl

theorem hexValue_serialDigits (n : UInt64) :
    hexValue ((serialDigits n).map Nat.digitChar) = n.toNat % 2 ^ 48 := by
  have hvalues : ((serialDigits n).map Nat.digitChar).filterMap hexDigit? = serialDigits n := by
    rw [List.filterMap_map, List.filterMap_congr (g := some), List.filterMap_some]
    exact fun d hd => reads_hexDigit d (serialDigits_lt hd)
  rw [hexValue, hvalues, serialDigits, Digits.value_lastDigits]
  norm_num

theorem macToInt_bssid (n : UInt64) :
    (macToInt (serialToMAC (intToSerialNumber n))).toNat = n.toNat % 2 ^ 48 := by
  have hlength : ((serialDigits n).map Nat.digitChar).length = 12 := by
    rw [List.length_map, length_serialDigits]
  rw [intToSerialNumber_eq, macToInt_serialToMAC hlength (isHex_serialDigits n),
    hexValue_serialDigits]

/-! ## Addresses that differ -/

theorem hexValue_serialNumber (hlength : p.toList.length = 6) (hp : IsHex p.toList)
    (h : n < 2 ^ 20) :
    hexValue (SimulationRunner.serialNumber p n).toList =
      hexValue p.toList * 2 ^ 24 + n.toNat * 16 := by
  have hzero : hexValue ['0'] = 0 := by decide
  rw [serialNumber_of_hex hlength hp h, hexValue_append (isHex_tail n), hexValue_append (by decide),
    hexValue_deviceDigits, hzero, List.length_append, length_deviceDigits h]
  rfl

theorem hexValue_lt_of_six (hlength : p.toList.length = 6) (hp : IsHex p.toList) :
    hexValue p.toList < 2 ^ 24 := by
  have hlt := hexValue_lt hp
  rw [hlength] at hlt
  norm_num at hlt ⊢
  exact hlt

/-- The sixteen addresses from a number on. -/
def sixteen (v : Nat) : List UInt64 := (List.range 16).map fun k => .ofNat (v + k)

theorem sixteen_eq (v : Nat) :
    sixteen v = .ofNat v :: (List.range 15).map fun k => .ofNat (v + (k + 1)) := by
  rw [sixteen, List.range_succ_eq_map, List.map_cons, List.map_map]
  rfl

theorem map_macToInt {serial : String} {v : Nat} (hv : v + 16 ≤ 2 ^ 48)
    (hserial : (macToInt serial).toNat = v) :
    (serial :: (List.range 15).map fun k =>
      serialToMAC (intToSerialNumber (.ofNat v + .ofNat (k + 1)))).map macToInt = sixteen v := by
  have hsize : UInt64.size = 2 ^ 64 := rfl
  rw [sixteen_eq, List.map_cons, List.map_map, List.cons_eq_cons]
  constructor
  · rw [← UInt64.toNat_inj, hserial, UInt64.toNat_ofNat_of_lt' (by omega)]
  · refine List.map_congr_left fun k hk => ?_
    rw [List.mem_range] at hk
    simp only [Function.comp_apply]
    rw [← UInt64.toNat_inj, macToInt_bssid, UInt64.toNat_add, UInt64.toNat_ofNat_of_lt' (by omega),
      UInt64.toNat_ofNat_of_lt' (by omega), UInt64.toNat_ofNat_of_lt' (by omega)]
    omega

theorem map_addresses (hlength : p.toList.length = 6) (hp : IsHex p.toList) (h : n < 2 ^ 20) :
    ∃ as, addresses (SimulationRunner.serialNumber p n) = .ok as ∧
      as.map macToInt = sixteen (hexValue p.toList * 2 ^ 24 + n.toNat * 16) := by
  have hprefix := hexValue_lt_of_six hlength hp
  have hn : n.toNat < 2 ^ 20 := UInt64.lt_iff_toNat_lt.mp h
  have hnumber := serialNumberToInt_serialNumber hlength hp h
  have hfirst := macToInt_toNat fun c hc => .inr (isHex_serialNumber hlength hp h c hc)
  rw [hexValue_serialNumber hlength hp h] at hnumber hfirst
  rw [Nat.mod_eq_of_lt (by omega)] at hfirst
  exact ⟨_, by rw [addresses, hnumber]; rfl, map_macToInt (by omega) hfirst⟩

theorem mem_sixteen {v : Nat} (hv : v + 16 ≤ UInt64.size) {a : UInt64} :
    a ∈ sixteen v ↔ v ≤ a.toNat ∧ a.toNat < v + 16 := by
  simp only [sixteen, List.mem_map, List.mem_range]
  constructor
  · rintro ⟨k, hk, rfl⟩
    rw [UInt64.toNat_ofNat_of_lt' (by omega)]
    omega
  · rintro ⟨hle, hlt⟩
    refine ⟨a.toNat - v, by omega, ?_⟩
    rw [Nat.add_sub_cancel' hle, UInt64.ofNat_toNat]

theorem nodup_sixteen {v : Nat} (hv : v + 16 ≤ UInt64.size) : (sixteen v).Nodup := by
  refine List.Nodup.map_on ?_ List.nodup_range
  intro i hi j hj hij
  rw [List.mem_range] at hi hj
  have hnat := congrArg UInt64.toNat hij
  rw [UInt64.toNat_ofNat_of_lt' (by omega), UInt64.toNat_ofNat_of_lt' (by omega)] at hnat
  omega

/-- A prefix of six hexadecimal digits: the serial numbers of a simulation differ, and so do all
addresses of all its devices. -/
theorem addresses_differ (p : String) (hlength : p.toList.length = 6) (hp : IsHex p.toList) :
    ∃ addressesOf : UInt64 → List String, ∀ m < 2 ^ 20,
      addresses (SimulationRunner.serialNumber p m) = .ok (addressesOf m) ∧
      ((addressesOf m).map macToInt).Nodup ∧
      ∀ n < 2 ^ 20, m ≠ n →
        SimulationRunner.serialNumber p m ≠ SimulationRunner.serialNumber p n ∧
        ((addressesOf m).map macToInt).Disjoint ((addressesOf n).map macToInt) := by
  have hprefix := hexValue_lt_of_six hlength hp
  have hsize : UInt64.size = 2 ^ 64 := rfl
  refine ⟨fun m => (addresses (SimulationRunner.serialNumber p m)).toOption.getD [],
    fun m hm => ?_⟩
  obtain ⟨as, has, hmap⟩ := map_addresses hlength hp hm
  have hm' : m.toNat < 2 ^ 20 := UInt64.lt_iff_toNat_lt.mp hm
  simp only [has, Except.toOption, Option.getD_some, hmap]
  refine ⟨trivial, nodup_sixteen (by omega), fun n hn hmn => ?_⟩
  obtain ⟨bs, hbs, hmap'⟩ := map_addresses hlength hp hn
  have hn' : n.toNat < 2 ^ 20 := UInt64.lt_iff_toNat_lt.mp hn
  have hne : m.toNat ≠ n.toNat := fun h => hmn (UInt64.toNat_inj.mp h)
  simp only [hbs, Option.getD_some, hmap']
  constructor
  · intro h
    have hvalue := congrArg (fun s : String => hexValue s.toList) h
    simp only [hexValue_serialNumber hlength hp hm, hexValue_serialNumber hlength hp hn]
      at hvalue
    omega
  · intro a ha hb
    rw [mem_sixteen (by omega)] at ha hb
    omega

theorem addresses_differ_sample :
    SimulationRunner.serialNumber "53494d" 0 ≠ SimulationRunner.serialNumber "53494d" 1 := by
  obtain ⟨_, h⟩ := addresses_differ "53494d" (by decide) (by decide)
  exact ((h 0 (by decide)).2.2 1 (by decide) (by decide)).1

end Owls
