import Owls.Serials

/-!
# Serial numbers and MAC addresses

A number below 2^48 goes through its serial number, and through the address that is made of it,
and comes back.
-/

namespace Owls.Utils

/-- The answer, and what is left in `Mac`. Twelve bytes that are all digits are twelve
characters. -/
def normalizeMac (mac : String) : Bool × String :=
  let cs := (mac.toList.filter (· ≠ ':')).filter (· ≠ '-')
  if cs.length ≠ 12 then (false, .ofList cs)
  else if cs.all fun c => (hexDigit? c).isSome then (true, .ofList (cs.map Char.toLower))
  else (false, .ofList cs)

variable {cs : List Char} {c : Char} {d : Nat} {n : UInt64}

/-! ## Case -/

theorem toLower_of_hexDigit (h : hexDigit? c = some d) : c.toLower = d.digitChar := by
  have hdecimal : ∀ d < 10, (Char.ofNat (d + 48)).toLower = d.digitChar := by decide
  have hsmall : ∀ d < 16, 10 ≤ d → (Char.ofNat (d + 87)).toLower = d.digitChar := by decide
  have hcapital : ∀ d < 16, 10 ≤ d → (Char.ofNat (d + 55)).toLower = d.digitChar := by decide
  rcases hexDigit_eq_some h with ⟨hd, hc⟩ | ⟨hle, hlt, hc | hc⟩
  · rw [← hdecimal d hd, ← hc, Char.ofNat_toNat]
  · rw [← hsmall d hlt hle, ← hc, Char.ofNat_toNat]
  · rw [← hcapital d hlt hle, ← hc, Char.ofNat_toNat]

theorem toLower_digitChar (h : d < 16) : d.digitChar.toLower = d.digitChar :=
  toLower_of_hexDigit (reads_hexDigit d h)

theorem map_digitChar_hexValues (h : IsHex cs) :
    (cs.filterMap hexDigit?).map Nat.digitChar = cs.map Char.toLower := by
  induction cs with
  | nil => rfl
  | cons c cs ih =>
    obtain ⟨d, hd⟩ := Option.isSome_iff_exists.mp (h c List.mem_cons_self)
    rw [List.filterMap_cons, hd, List.map_cons, List.map_cons, toLower_of_hexDigit hd,
      ih fun c hc => h c (List.mem_cons_of_mem _ hc)]

/-! ## Serial numbers -/

theorem toList_intToSerialNumber (n : UInt64) :
    (intToSerialNumber n).toList = (serialDigits n).map Nat.digitChar := by
  rw [intToSerialNumber_eq, String.toList_ofList]

theorem serialNumberToInt_intToSerialNumber (h : n < 2 ^ 48) :
    serialNumberToInt (intToSerialNumber n) = .ok n := by
  have hlt : n.toNat < 2 ^ 48 := UInt64.lt_iff_toNat_lt.mp h
  have hlength : (intToSerialNumber n).toList.length = 12 := by
    rw [toList_intToSerialNumber, List.length_map, length_serialDigits]
  have hhex : IsHex (intToSerialNumber n).toList := by
    rw [toList_intToSerialNumber]
    exact isHex_serialDigits n
  have hne : (intToSerialNumber n).toList ≠ [] := by
    rw [← List.length_pos_iff]
    omega
  rw [serialNumberToInt_of_hex hhex hne (by omega), toList_intToSerialNumber,
    hexValue_serialDigits, Nat.mod_eq_of_lt hlt, UInt64.ofNat_toNat]

theorem intToSerialNumber_hexValue (hlength : cs.length = 12) (h : IsHex cs) :
    intToSerialNumber (.ofNat (hexValue cs)) = .ofList (cs.map Char.toLower) := by
  have hlt : hexValue cs < UInt64.size := by
    have hvalue := hexValue_lt h
    rw [hlength] at hvalue
    exact Nat.lt_of_lt_of_le hvalue (Nat.pow_le_pow_right (by decide) (by decide : 12 ≤ 16))
  have hdigits : serialDigits (.ofNat (hexValue cs)) = cs.filterMap hexDigit? := by
    have hlast : ((List.range (cs.filterMap hexDigit?).length).reverse.map fun i =>
        hexValue cs / 16 ^ i % 16) = cs.filterMap hexDigit? := by
      apply Digits.lastDigits_value
      intro d hd
      obtain ⟨c, -, hc⟩ := List.mem_filterMap.mp hd
      exact hexDigit_lt hc
    rw [length_hexValues h, hlength] at hlast
    rw [serialDigits, UInt64.toNat_ofNat_of_lt' hlt]
    exact hlast
  rw [intToSerialNumber_eq, hdigits, map_digitChar_hexValues h]

/-! ## Addresses -/

theorem filter_of_hex (h : IsHex cs) {m : Char} (hm : (hexDigit? m).isSome = false) :
    cs.filter (· ≠ m) = cs := by
  rw [List.filter_eq_self]
  intro c hc
  rw [decide_eq_true_eq]
  rintro rfl
  exact absurd (h c hc) (by simp [hm])

theorem filter_serialToMAC (hlength : cs.length = 12) (h : IsHex cs) :
    (serialToMAC (.ofList cs)).toList.filter (· ≠ ':') = cs := by
  have hnone : cs.filter (· ≠ ':') = cs := filter_of_hex h (by decide)
  match cs, hlength with
  | [a, b, c, d, e, f, g, h', i, j, k, l], _ =>
    have hcolons : [a, b, ':', c, d, ':', e, f, ':', g, h', ':', i, j, ':', k, l].filter
        (· ≠ ':') = [a, b, c, d, e, f, g, h', i, j, k, l].filter (· ≠ ':') := by
      simp [List.filter_cons]
    rw [toList_serialToMAC, hcolons, hnone]

theorem normalizeMac_serialToMAC (hlength : cs.length = 12) (h : IsHex cs) :
    normalizeMac (serialToMAC (.ofList cs)) = (true, .ofList (cs.map Char.toLower)) := by
  have hdashes : cs.filter (· ≠ '-') = cs := filter_of_hex h (by decide)
  have hall : cs.all (fun c => (hexDigit? c).isSome) = true := List.all_eq_true.mpr h
  simp only [normalizeMac, filter_serialToMAC hlength h, hdashes]
  rw [if_neg (by omega), if_pos hall]

theorem normalizeMac_bssid (n : UInt64) :
    normalizeMac (serialToMAC (intToSerialNumber n)) = (true, intToSerialNumber n) := by
  have hlength : ((serialDigits n).map Nat.digitChar).length = 12 := by
    rw [List.length_map, length_serialDigits]
  have hlower : ((serialDigits n).map Nat.digitChar).map Char.toLower =
      (serialDigits n).map Nat.digitChar := by
    rw [List.map_map]
    exact List.map_congr_left fun d hd => toLower_digitChar (serialDigits_lt hd)
  rw [intToSerialNumber_eq, normalizeMac_serialToMAC hlength (isHex_serialDigits n), hlower]

/-- Numbers of 48 bits, their serial numbers and their addresses stand for each other. -/
theorem serials_and_macs :
    (∀ n : UInt64, n < 2 ^ 48 →
      serialNumberToInt (intToSerialNumber n) = .ok n ∧
      macToInt (serialToMAC (intToSerialNumber n)) = n ∧
      normalizeMac (serialToMAC (intToSerialNumber n)) = (true, intToSerialNumber n)) ∧
    ∀ s : String, s.toList.length = 12 → IsHex s.toList →
      (serialNumberToInt s).map intToSerialNumber = .ok (.ofList (s.toList.map Char.toLower)) := by
  constructor
  · intro n h
    have hlt : n.toNat < 2 ^ 48 := UInt64.lt_iff_toNat_lt.mp h
    refine ⟨serialNumberToInt_intToSerialNumber h, ?_, normalizeMac_bssid n⟩
    rw [← UInt64.toNat_inj, macToInt_bssid, Nat.mod_eq_of_lt hlt]
  · intro s hlength hhex
    have hne : s.toList ≠ [] := by
      rw [← List.length_pos_iff]
      omega
    rw [serialNumberToInt_of_hex hhex hne (by omega), Except.map,
      intToSerialNumber_hexValue hlength hhex]

theorem serials_and_macs_sample :
    normalizeMac (serialToMAC (intToSerialNumber 0x0a1b2c3d4e5f)) =
      (true, intToSerialNumber 0x0a1b2c3d4e5f) ∧
    (serialNumberToInt "0A1B2C3D4E5F").map intToSerialNumber = .ok "0a1b2c3d4e5f" := by
  have hlower : String.ofList ("0A1B2C3D4E5F".toList.map Char.toLower) = "0a1b2c3d4e5f" := by
    decide
  constructor
  · exact (serials_and_macs.1 0x0a1b2c3d4e5f (by decide)).2.2
  · rw [serials_and_macs.2 "0A1B2C3D4E5F" (by decide) (by decide), hlower]

end Owls.Utils
