import Owls.DeviceState

/-!
# The references of the state report

An SSID of the report names its radio and its interface by their positions.
-/

open Draw

namespace Owls

/-- The SSID refers to a radio of its band, and to the interface `j` that it stands in. -/
structure SsidInfo.Refers (s : DeviceState) (j : Nat) (ssid : SsidInfo) : Prop where
  radio : ∃ (n : Nat) (r : MockRadio), ssid.radio = "#/radios/" ++ toString n ∧
    s.radios[n]? = some r ∧ r.band = [ssid.band]
  location : ("/interfaces/" ++ toString j).toList <+: ssid.location.toList

namespace OWLSclient

def ReferencesHold (s : DeviceState) : Prop :=
  ∀ (j : Nat) (i : InterfaceState), s.interfaces[j]? = some i → ∀ ssid ∈ i.ssids, ssid.Refers s j

/-- No SSID is on the second interface of the report. -/
def OnFirstInterface (c : Device) (config : Configuration) : Prop :=
  ∀ l ∈ config.locations, l.role = .downstream →
    .upstream ∉ c.allCounters ∧ .upstream ∉ config.roles

/-- The bands of the radios, each once, as the report lists them. -/
def bandOrder (config : Configuration) : List RadioBands :=
  RadioBands.all.filter (· ∈ config.bands)

/-- The last radio of the band of an SSID stands where the report lists the band. -/
def RadiosInOrder (config : Configuration) : Prop :=
  ∀ l ∈ config.locations, ∀ x, lastRadio config.radios.zipIdx l.band = some x →
    x.2 = (bandOrder config).idxOf l.band

/-! ## Texts -/

theorem reference_inj {m n : Nat} (h : "#/radios/" ++ toString m = "#/radios/" ++ toString n) :
    m = n := by
  have hlist := congrArg String.toList h
  rw [String.toList_append, String.toList_append] at hlist
  have hdigits := List.append_cancel_left hlist
  have hvalue := congrArg (fun cs => Nat.ofDigitChars 10 cs 0) hdigits
  simpa [Nat.toString_eq_ofList_toDigits] using hvalue

theorem location_iff {j n : Nat} (hj : j < 2) : ("/interfaces/" ++ toString j).toList <+:
    ("/interfaces/" ++ toString 0 ++ "/ssids/" ++ toString n).toList ↔ j = 0 := by
  simp only [String.toList_append, List.append_assoc, List.prefix_append_right_inj]
  obtain rfl | rfl : j = 0 ∨ j = 1 := by omega
  · exact iff_of_true (List.prefix_append _ _) rfl
  · refine iff_of_false (fun h => ?_) (by decide)
    have hhead := (List.cons_prefix_cons.mp h).1
    exact absurd hhead (by decide)

theorem toString_band_inj {a b : RadioBands} (h : a.toString = b.toString) : a = b := by
  cases a <;> cases b <;> first | rfl | exact absurd h (by decide)

theorem eq_toString_of_findBand {s : String} {band : RadioBands} (h : findBand s = some band) :
    s = band.toString := by
  unfold findBand at h
  split at h
  · rename_i hs
    cases h
    exact hs
  · split at h
    · rename_i hs
      cases h
      exact hs
    · split at h
      · rename_i hs
        cases h
        exact hs
      · cases h

/-! ## Radios -/

section Radios

variable {prior : List ApInterfaceTypes} {config : Configuration} {c : Device} {b : RadioBands}

theorem mem_bandOrder : b ∈ bandOrder config ↔ b ∈ config.bands := by
  have hall : b ∈ RadioBands.all := by cases b <;> decide
  rw [bandOrder, List.mem_filter, decide_eq_true_eq, and_iff_right hall]

theorem lastRadio_isSome : (lastRadio config.radios.zipIdx b).isSome ↔ b ∈ config.bands := by
  rw [lastRadio, List.getLast?_isSome, ne_eq, List.filter_eq_nil_iff, Configuration.bands,
    List.mem_map]
  constructor
  · intro h
    obtain ⟨x, hx, hband⟩ := not_forall₂.mp h
    exact ⟨x.1, List.fst_mem_of_mem_zipIdx hx, of_decide_eq_true (not_not.mp hband)⟩
  · rintro ⟨radio, hradio, hband⟩ h
    obtain ⟨n, hn⟩ := List.mem_iff_getElem?.mp hradio
    exact h (radio, n) (List.mem_zipIdx_iff_getElem?.mpr hn) (decide_eq_true hband)

theorem Filled.lookup (h : Filled prior config c) : c.allRadios.lookup b =
    if b ∈ config.bands then some (radioAt c b) else none := by
  have hradios := congrArg Option.isSome (h.radios b)
  rw [Option.isSome_map, Option.isSome_map] at hradios
  have hlast : (lastRadio config.radios.zipIdx b).isSome ↔ b ∈ config.bands := lastRadio_isSome
  have hmem := hradios ▸ hlast
  unfold radioAt
  cases hlookup : c.allRadios.lookup b with
  | none =>
    rw [hlookup] at hmem
    rw [if_neg fun hb => nomatch hmem.mpr hb]
  | some radio =>
    rw [hlookup] at hmem
    rw [if_pos (hmem.mp rfl)]
    rfl

theorem Filled.radios_eq (h : Filled prior config c) :
    (createStatePtr c).radios = (bandOrder config).map (radioAt c) := by
  simp only [createStatePtr, RadioBands.all, bandOrder, List.filterMap_cons, List.filter_cons,
    h.lookup, decide_eq_true_eq, List.filterMap_nil, List.filter_nil]
  split_ifs <;> rfl

theorem Filled.radioAt_eq (h : Filled prior config c)
    (hknown : ∀ radio ∈ config.radios, (findBand radio.band).isSome) (hb : b ∈ config.bands) :
    (radioAt c b).band = [b.toString] ∧
      ∃ x, lastRadio config.radios.zipIdx b = some x ∧ (radioAt c b).index = x.2 := by
  obtain ⟨x, hx⟩ := Option.isSome_iff_exists.mp (lastRadio_isSome.mpr hb)
  have hradio := h.radios b
  rw [h.lookup, if_pos hb, hx, Option.map_some, Option.map_some, Option.some.injEq,
    Prod.mk.injEq] at hradio
  have hmem := List.mem_filter.mp (List.mem_of_getLast? hx)
  obtain ⟨band, hband⟩ := Option.isSome_iff_exists.mp
    (hknown x.1 (List.fst_mem_of_mem_zipIdx hmem.1))
  have hsame : band = b := by simpa [hband] using hmem.2
  refine ⟨?_, x, hx, hradio.2⟩
  rw [hradio.1, eq_toString_of_findBand hband, hsame]

theorem Filled.radio_iff (h : Filled prior config c)
    (hknown : ∀ radio ∈ config.radios, (findBand radio.band).isSome)
    {a : Associations} (hb : a.1.band ∈ config.bands) (role : ApInterfaceTypes) (num : Nat) :
    (∃ (n : Nat) (r : MockRadio), (ssidInfo c role num a).radio = "#/radios/" ++ toString n ∧
        (createStatePtr c).radios[n]? = some r ∧ r.band = [(ssidInfo c role num a).band]) ↔
      (radioAt c a.1.band).index = (bandOrder config).idxOf a.1.band := by
  have hmem := mem_bandOrder.mpr hb
  have hnodup : (bandOrder config).Nodup := List.Nodup.filter _ (by decide)
  rw [h.radios_eq]
  constructor
  · rintro ⟨n, r, hn, hr, hband⟩
    rw [reference_inj hn]
    rw [List.getElem?_map] at hr
    obtain ⟨b, hb', rfl⟩ := Option.map_eq_some_iff.mp hr
    obtain ⟨hlt, rfl⟩ := List.getElem?_eq_some_iff.mp hb'
    have hown := (h.radioAt_eq hknown (mem_bandOrder.mp (List.getElem_mem hlt))).1
    have hsame := toString_band_inj (List.cons.inj (hown.symm.trans hband)).1
    rw [← hsame, hnodup.idxOf_getElem]
  · intro hindex
    refine ⟨_, radioAt c a.1.band, rfl, ?_, (h.radioAt_eq hknown hb).1⟩
    rw [hindex, List.getElem?_map, List.getElem?_idxOf hmem]
    rfl

/-! ## SSIDs -/

theorem Filled.refers_iff (h : Filled prior config c)
    (hknown : ∀ radio ∈ config.radios, (findBand radio.band).isSome)
    {a : Associations} (hb : a.1.band ∈ config.bands) (role : ApInterfaceTypes) (num : Nat) {j : Nat}
    (hj : j < 2) : (ssidInfo c role num a).Refers (createStatePtr c) j ↔
      (radioAt c a.1.band).index = (bandOrder config).idxOf a.1.band ∧ j = 0 := by
  rw [← h.radio_iff hknown hb role num, ← location_iff hj]
  exact ⟨fun hrefers => ⟨hrefers.radio, hrefers.location⟩, fun ⟨hradio, hlocation⟩ =>
    ⟨hradio, hlocation⟩⟩

theorem position_iff {roles : List ApInterfaceTypes} {role : ApInterfaceTypes} {j : Nat}
    (h : (ApInterfaceTypes.all.filter (· ∈ roles))[j]? = some role) :
    j < 2 ∧ (j = 0 ↔ (role = .downstream → .upstream ∉ roles)) := by
  by_cases hup : .upstream ∈ roles <;> by_cases hdown : .downstream ∈ roles <;>
    simp only [ApInterfaceTypes.all, List.filter_cons, List.filter_nil, hup, hdown, decide_true,
      decide_false, if_true, Bool.false_eq_true, if_false] at h
  · obtain _ | _ | j := j <;> simp at h <;> simp [← h]
    exact hup
  · obtain _ | j := j <;> simp at h
    simp [← h]
  · obtain _ | j := j <;> simp at h
    simp [hup]
  · simp at h

theorem Filled.placed (h : Filled prior config c)
    (hknown : ∀ radio ∈ config.radios, (findBand radio.band).isSome)
    (hbands : ∀ l ∈ config.locations, l.band ∈ config.bands)
    (hrefs : ReferencesHold (createStatePtr c)) {l : InterfaceLocation}
    (hl : l ∈ config.locations) :
    (radioAt c l.band).index = (bandOrder config).idxOf l.band ∧
      (l.role = .downstream → .upstream ∉ c.allCounters) := by
  obtain ⟨as, has⟩ := Option.isSome_iff_exists.mp
    (AList.lookup_isSome.mpr ((h.associations l).mpr hl))
  have hrole := (h.counters l.role).mpr (.inr (role_mem_roles hl))
  have hall : l.role ∈ ApInterfaceTypes.all := by cases l.role <;> decide
  have hlisted : l.role ∈ ApInterfaceTypes.all.filter (· ∈ c.allCounters) :=
    List.mem_filter.mpr ⟨hall, decide_eq_true hrole⟩
  obtain ⟨j, hj⟩ := List.mem_iff_getElem?.mp hlisted
  obtain ⟨num, hnum⟩ := List.mem_iff_getElem?.mp
    (mem_associationsOf.mpr ⟨has, rfl⟩ : (⟨l, as⟩ : Associations) ∈ associationsOf c l.role)
  obtain ⟨hlt, hnum⟩ := List.getElem?_eq_some_iff.mp hnum
  have hmem : ssidInfo c l.role num ⟨l, as⟩ ∈ (interfaceState c l.role).ssids :=
    List.mem_mapIdx.mpr ⟨num, hlt, by rw [hnum]⟩
  obtain ⟨hlt2, hfirst⟩ := position_iff hj
  have hinterface : (createStatePtr c).interfaces[j]? = some (interfaceState c l.role) := by
    rw [createStatePtr, List.getElem?_map, hj]
    rfl
  have hrefers := hrefs j _ hinterface _ hmem
  obtain ⟨hindex, hzero⟩ := (h.refers_iff hknown (hbands l hl) l.role num hlt2).mp hrefers
  exact ⟨hindex, hfirst.mp hzero⟩

theorem Filled.references_iff (h : Filled prior config c)
    (hknown : ∀ radio ∈ config.radios, (findBand radio.band).isSome)
    (hbands : ∀ l ∈ config.locations, l.band ∈ config.bands) :
    ReferencesHold (createStatePtr c) ↔
      (∀ l ∈ config.locations, l.role = .downstream → .upstream ∉ prior ∧ .upstream ∉ config.roles) ∧
        RadiosInOrder config := by
  have hcounters := h.counters .upstream
  constructor
  · intro hrefs
    constructor
    · intro l hl hdown
      have hnone := (h.placed hknown hbands hrefs hl).2 hdown
      rw [hcounters, not_or] at hnone
      exact hnone
    · intro l hl x hx
      obtain ⟨-, x', hx', hindex⟩ := h.radioAt_eq hknown (hbands l hl)
      cases hx.symm.trans hx'
      exact hindex.symm.trans (h.placed hknown hbands hrefs hl).1
  · rintro ⟨hfirst, horder⟩ j i hi ssid hssid
    rw [createStatePtr, List.getElem?_map] at hi
    obtain ⟨role, hrole, rfl⟩ := Option.map_eq_some_iff.mp hi
    obtain ⟨num, hlt, rfl⟩ := List.mem_mapIdx.mp hssid
    obtain ⟨hlookup, hl⟩ := mem_associationsOf.mp (List.getElem_mem hlt)
    have hmem : ((associationsOf c role)[num]).1 ∈ config.locations :=
      (h.associations _).mp (AList.lookup_isSome.mp (hlookup ▸ rfl))
    obtain ⟨hlt2, hzero⟩ := position_iff hrole
    rw [h.refers_iff hknown (hbands _ hmem) role num hlt2]
    obtain ⟨-, x, hx, hindex⟩ := h.radioAt_eq hknown (hbands _ hmem)
    refine ⟨hindex.trans (horder _ hmem x hx), hzero.mpr fun hdown => ?_⟩
    rw [hcounters, not_or]
    exact hfirst _ hmem (hl.trans hdown)

end Radios

/-- The references of a report hold after a configuration exactly when no SSID is on its second
interface, and the radios of the SSIDs stand in the order of the report. -/
theorem references_hold_iff (d : SimulationDetails) (config : Configuration) (c c' : Device)
    (r t : Entropy) (h : updateConfiguration d config c r = .ok (c', t))
    (hknown : ∀ radio ∈ config.radios, (findBand radio.band).isSome)
    (hbands : ∀ l ∈ config.locations, l.band ∈ config.bands) :
    ReferencesHold (createStatePtr c') ↔ OnFirstInterface c config ∧ RadiosInOrder config :=
  ((yields_filled config c).of_ok h).references_iff hknown hbands

theorem references_hold_sample : ∃ c t, new sampleDetails "53494d000000" zeros = .ok (c, t) ∧
    (ReferencesHold (createStatePtr c) ↔
      OnFirstInterface { serialNumber := "53494d000000" } defaultConfiguration ∧
        RadiosInOrder defaultConfiguration) := by
  obtain ⟨c, t, hnew, -⟩ := returns_sampleDetails zeros
  exact ⟨c, t, hnew, references_hold_iff sampleDetails defaultConfiguration _ c zeros t hnew
    (by decide) (by decide)⟩

/-- The SSIDs of the second interface of the built-in configuration refer to the first one. -/
theorem second_interface_missed : ¬ ∀ (d : SimulationDetails) (config : Configuration)
    (c c' : Device) (r t : Entropy), updateConfiguration d config c r = .ok (c', t) →
    (∀ radio ∈ config.radios, (findBand radio.band).isSome) →
    (∀ l ∈ config.locations, l.band ∈ config.bands) → ReferencesHold (createStatePtr c') := by
  intro h
  obtain ⟨c, t, hnew, -⟩ := returns_sampleDetails zeros
  have hrefs := h sampleDetails defaultConfiguration _ c zeros t hnew (by decide) (by decide)
  have hfilled := (yields_filled (d := sampleDetails) defaultConfiguration _).of_ok hnew
  have hfirst := ((hfilled.references_iff (by decide) (by decide)).mp hrefs).1
  have hlocation : (⟨.downstream, "OpenWifi-test2", .band2g⟩ : InterfaceLocation) ∈
      defaultConfiguration.locations := by decide
  exact (hfirst _ hlocation rfl).2 (by decide)

end OWLSclient

end Owls
