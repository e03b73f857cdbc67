import Mathlib.Data.List.Perm.Basic
import Owls.Tables

/-!
# The state report

`CreateStatePtr` walks through the tables of a device in the order of their keys. The counters, the
unit and the link state are left out.
-/

open Machine Draw

namespace Owls

/-! ## Keys -/

def ApInterfaceTypes.all : List ApInterfaceTypes := [.upstream, .downstream]

def RadioBands.all : List RadioBands := [.band2g, .band5g, .band6g]

def InterfaceLocation.le (a b : InterfaceLocation) : Bool :=
  if a.role ≠ b.role then a.role = .upstream
  else if a.ssid ≠ b.ssid then a.ssid < b.ssid
  else RadioBands.all.idxOf a.band ≤ RadioBands.all.idxOf b.band

def RadioBands.toString : RadioBands → String
  | .band5g => "5G"
  | .band6g => "6G"
  | .band2g => "2G"

def ApInterfaceTypes.interfaceName : ApInterfaceTypes → String
  | .upstream => "up0v0"
  | .downstream => "down0v0"

def ApInterfaceTypes.portName : ApInterfaceTypes → String
  | .upstream => "eth0"
  | .downstream => "eth1"

/-! ## Reports -/

/-- A LAN client, or a station, which has been seen just now. -/
structure ClientEntry where
  mac : String
  ipv4Addresses : List String
  ipv6Addresses : List String
  ports : List String
  lastSeen : Option Nat := none
deriving DecidableEq

/-- `radio` is the `$ref`. -/
structure SsidInfo where
  associations : List MockAssociation
  bssid : String
  band : String
  frequency : List UInt64
  iface : String
  mode : String
  ssid : String
  phy : String
  location : String
  name : String
  radio : String

structure InterfaceState where
  name : String
  ssids : List SsidInfo
  clients : Option (List ClientEntry)

structure DeviceState where
  radios : List MockRadio
  interfaces : List InterfaceState

def MockLanClient.entry (client : MockLanClient) : ClientEntry where
  mac := client.mac
  ipv4Addresses := client.ipv4Addresses
  ipv6Addresses := client.ipv6Addresses
  ports := client.ports

def MockAssociation.entry (role : ApInterfaceTypes) (a : MockAssociation) : ClientEntry where
  mac := a.station
  ipv4Addresses := [a.ipaddrV4]
  ipv6Addresses := [a.ipaddrV6]
  ports := if role = .upstream then ["wwan0"] else ["wlan0"]
  lastSeen := some 0

abbrev Associations := Sigma fun _ : InterfaceLocation => List MockAssociation

def Associations.entries (a : Associations) : List ClientEntry :=
  a.2.map (MockAssociation.entry a.1.role)

namespace OWLSclient

/-- `AllRadios_[band]`: what is inserted for a band that is not there has the defaults. -/
def radioAt (c : Device) (band : RadioBands) : MockRadio := (c.allRadios.lookup band).getD {}

def associationsOf (c : Device) (role : ApInterfaceTypes) : List Associations :=
  (c.allAssociations.entries.mergeSort fun a b => a.1.le b.1).filter fun a => a.1.role = role

def ssidInfo (c : Device) (role : ApInterfaceTypes) (ssidNum : Nat) (a : Associations) :
    SsidInfo :=
  let radio := radioAt c a.1.band
  let interfaces := 0
  { associations := a.2
    bssid := (a.2.getLast?.map MockAssociation.bssid).getD ""
    band := a.1.band.toString
    frequency := radio.frequency
    iface := a.1.role.portName
    mode := "ap"
    ssid := a.1.ssid
    phy := radio.phy
    location := "/interfaces/" ++ toString interfaces ++ "/ssids/" ++ toString ssidNum
    name := role.interfaceName
    radio := "#/radios/" ++ toString radio.index }

def hasClients (c : Device) (role : ApInterfaceTypes) : Bool :=
  (c.allCounters.length = 1 && role = .upstream) ||
    (c.allCounters.length = 2 && role = .downstream)

def interfaceState (c : Device) (role : ApInterfaceTypes) : InterfaceState where
  name := role.interfaceName
  ssids := (associationsOf c role).mapIdx (ssidInfo c role)
  clients :=
    if hasClients c role then
      some (c.allLanClients.map MockLanClient.entry ++
        (associationsOf c role).flatMap Associations.entries)
    else none

/-- What it does to the tables is `Tables.createStatePtr`. -/
def createStatePtr (c : Device) : DeviceState where
  radios := RadioBands.all.filterMap c.allRadios.lookup
  interfaces := (ApInterfaceTypes.all.filter (· ∈ c.allCounters)).map (interfaceState c)

/-! ## Clients -/

def knownClients (c : Device) : List ClientEntry :=
  c.allLanClients.map MockLanClient.entry ++
    c.allAssociations.entries.flatMap Associations.entries

end OWLSclient

def DeviceState.clients (s : DeviceState) : List ClientEntry :=
  s.interfaces.flatMap fun i => i.clients.getD []

namespace OWLSclient

/-- The report lists every LAN client and every station exactly once. -/
def ListsAll (c : Device) : Prop := (createStatePtr c).clients.Perm (knownClients c)

/-- With both interfaces there is no station on the upstream one, and without an upstream interface
there is nobody. -/
structure NothingElsewhere (c : Device) : Prop where
  both : .upstream ∈ c.allCounters → .downstream ∈ c.allCounters →
    ∀ l as, c.allAssociations.lookup l = some as → l.role = .upstream → as = []
  nowhere : .upstream ∉ c.allCounters →
    c.allLanClients = [] ∧ ∀ l as, c.allAssociations.lookup l = some as → as = []

/-- The counters have each role once, and the roles of all associations. -/
structure Rooted (c : Device) : Prop where
  nodup : c.allCounters.Nodup
  roles : ∀ l ∈ c.allAssociations, l.role ∈ c.allCounters

variable {c : Device} {role : ApInterfaceTypes}

def stations (c : Device) (role : ApInterfaceTypes) : List ClientEntry :=
  (associationsOf c role).flatMap Associations.entries

theorem length_of_nodup {roles : List ApInterfaceTypes} (h : roles.Nodup) :
    roles.length =
      (if .upstream ∈ roles then 1 else 0) + (if .downstream ∈ roles then 1 else 0) := by
  have hcount : roles.length = roles.count .upstream + roles.count .downstream := by
    clear h
    induction roles with
    | nil => rfl
    | cons role roles ih =>
      cases role <;> simp [ih] <;> omega
  rw [hcount, h.count, h.count]

theorem clients_eq (h : c.allCounters.Nodup) : (createStatePtr c).clients =
    if .upstream ∈ c.allCounters then
      c.allLanClients.map MockLanClient.entry ++
        stations c (if .downstream ∈ c.allCounters then .downstream else .upstream)
    else [] := by
  have hlength := length_of_nodup h
  by_cases hup : .upstream ∈ c.allCounters <;> by_cases hdown : .downstream ∈ c.allCounters <;>
    simp [DeviceState.clients, createStatePtr, ApInterfaceTypes.all, interfaceState, hasClients,
      stations, hup, hdown, hlength]

theorem associationsOf_perm (c : Device) :
    (associationsOf c .upstream ++ associationsOf c .downstream).Perm c.allAssociations.entries := by
  have hrest (a : Associations) : (!decide (a.1.role = .upstream)) =
      decide (a.1.role = .downstream) := by
    cases a.1.role <;> rfl
  have hpart := List.filter_append_perm (fun a : Associations => a.1.role = .upstream)
    (c.allAssociations.entries.mergeSort fun a b => a.1.le b.1)
  simp only [hrest] at hpart
  exact hpart.trans (List.mergeSort_perm _ _)

theorem knownClients_perm (c : Device) : (knownClients c).Perm
    (c.allLanClients.map MockLanClient.entry ++
      (stations c .upstream ++ stations c .downstream)) := by
  unfold knownClients stations
  rw [← List.flatMap_append]
  exact (((associationsOf_perm c).flatMap_right Associations.entries).append_left _).symm

theorem mem_associationsOf {a : Associations} : a ∈ associationsOf c role ↔
    c.allAssociations.lookup a.1 = some a.2 ∧ a.1.role = role := by
  rw [associationsOf, List.mem_filter, List.mem_mergeSort, decide_eq_true_eq,
    ← AList.mem_lookup_iff, Option.mem_def]

theorem stations_eq_nil : stations c role = [] ↔
    ∀ l as, c.allAssociations.lookup l = some as → l.role = role → as = [] := by
  simp only [stations, List.flatMap_eq_nil_iff, mem_associationsOf, Associations.entries,
    List.map_eq_nil_iff]
  constructor
  · intro h l as hlookup hrole
    exact h ⟨l, as⟩ ⟨hlookup, hrole⟩
  · rintro h ⟨l, as⟩ ⟨hlookup, hrole⟩
    exact h l as hlookup hrole

theorem Rooted.stations_eq_nil (h : Rooted c) (hrole : role ∉ c.allCounters) :
    stations c role = [] := by
  refine OWLSclient.stations_eq_nil.mpr fun l as hlookup hl => ?_
  have hmem : l ∈ c.allAssociations := AList.lookup_isSome.mp (hlookup ▸ rfl)
  exact absurd (hl ▸ h.roles l hmem) hrole

theorem listsAll_iff (h : Rooted c) : ListsAll c ↔ NothingElsewhere c := by
  have hknown := knownClients_perm c
  have hall : ListsAll c ↔ _ := ⟨fun hp => hp.trans hknown, fun hp => hp.trans hknown.symm⟩
  rw [hall, clients_eq h.nodup]
  by_cases hup : .upstream ∈ c.allCounters
  · rw [if_pos hup]
    by_cases hdown : .downstream ∈ c.allCounters
    · rw [if_pos hdown, List.perm_append_left_iff]
      constructor
      · intro hperm
        have hlength := hperm.length_eq
        rw [List.length_append] at hlength
        have hnil := List.length_eq_zero_iff.mp (by omega : (stations c .upstream).length = 0)
        exact ⟨fun _ _ => OWLSclient.stations_eq_nil.mp hnil, fun hnone => absurd hup hnone⟩
      · intro hnone
        rw [OWLSclient.stations_eq_nil.mpr (hnone.both hup hdown), List.nil_append]
    · rw [if_neg hdown, h.stations_eq_nil hdown, List.append_nil]
      exact iff_of_true (List.Perm.refl _)
        ⟨fun _ hd => absurd hd hdown, fun hnone => absurd hup hnone⟩
  · have hnobody := h.stations_eq_nil hup
    rw [if_neg hup, hnobody, List.nil_append, List.nil_perm, List.append_eq_nil_iff,
      List.map_eq_nil_iff, OWLSclient.stations_eq_nil]
    rw [OWLSclient.stations_eq_nil] at hnobody
    constructor
    · rintro ⟨hlan, hdown⟩
      refine ⟨fun hu => absurd hu hup, fun _ => ⟨hlan, fun l as hlookup => ?_⟩⟩
      cases hl : l.role with
      | upstream => exact hnobody l as hlookup hl
      | downstream => exact hdown l as hlookup hl
    · intro hnone
      obtain ⟨hlan, hassociations⟩ := hnone.nowhere hup
      exact ⟨hlan, fun l as hlookup _ => hassociations l as hlookup⟩

/-! ## After a configuration -/

variable {d : SimulationDetails}

/-- The index of the last radio of a band. -/
def lastRadio (radios : List (Radio × Nat)) (band : RadioBands) : Option (Radio × Nat) :=
  (radios.filter fun x => (findBand x.1.band).getD .band2g = band).getLast?

/-- What `UpdateConfiguration` leaves in the tables: the counters of before stay. -/
structure Filled (prior : List ApInterfaceTypes) (config : Configuration) (c : Device) :
    Prop where
  associations : ∀ l, l ∈ c.allAssociations ↔ l ∈ config.locations
  nodup : prior.Nodup → c.allCounters.Nodup
  counters : ∀ role, role ∈ c.allCounters ↔ role ∈ prior ∨ role ∈ config.roles
  radios : ∀ band, (c.allRadios.lookup band).map (fun r => (r.band, r.index)) =
    (lastRadio config.radios.zipIdx band).map fun x => ([x.1.band], x.2)

theorem fills_counters (prior : List ApInterfaceTypes) :
    Fills d (fun _ => True) fun _ roles c => (prior.Nodup → c.allCounters.Nodup) ∧
      ∀ role, role ∈ c.allCounters ↔ role ∈ prior ∨ role ∈ roles where
  serial _ := yields_true
  index hc := hc
  create hc l bssid := by
    unfold createAssociations
    exact yields_true.bind fun n _ => yields_true.map fun as _ => hc
  role {locations roles c} hc role := by
    refine ⟨fun hprior => (hc.1 hprior).insert, fun role' => ?_⟩
    rw [List.mem_insert_iff, hc.2, List.mem_append, List.mem_singleton, or_comm, or_assoc]

theorem yields_updateRadio (x : Radio × Nat) : Yields (updateRadio c x)
    (fun c' => ∃ radio : MockRadio, radio.band = [x.1.band] ∧ radio.index = x.2 ∧
      c' = { c with allRadios := c.allRadios.insert ((findBand x.1.band).getD .band2g) radio })
    fun _ => True := by
  obtain ⟨radio, index⟩ := x
  unfold updateRadio
  dsimp only
  split
  · exact yields_true.bind fun _ _ => yields_true.bind fun _ _ => yields_pure ⟨_, rfl, rfl, rfl⟩
  · split
    all_goals
      exact yields_true.bind fun _ _ => yields_true.bind fun _ _ => yields_pure ⟨_, rfl, rfl, rfl⟩

theorem lastRadio_append (done : List (Radio × Nat)) (x : Radio × Nat) (band : RadioBands) :
    lastRadio (done ++ [x]) band =
      if (findBand x.1.band).getD .band2g = band then some x else lastRadio done band := by
  unfold lastRadio
  rw [List.filter_append, List.filter_singleton]
  split
  · rename_i hband
    simp [hband]
  · rename_i hband
    simp [hband]

theorem yields_radios (hc : ∀ band, c.allRadios.lookup band = none) (radios : List (Radio × Nat)) :
    Yields (radios.foldlM updateRadio c) (fun c' => c'.allAssociations = c.allAssociations ∧
      c'.allCounters = c.allCounters ∧
      ∀ band, (c'.allRadios.lookup band).map (fun r => (r.band, r.index)) =
        (lastRadio radios band).map fun x => ([x.1.band], x.2)) fun _ => True := by
  refine Yields.foldlM (fun done c' => c'.allAssociations = c.allAssociations ∧
    c'.allCounters = c.allCounters ∧
    ∀ band, (c'.allRadios.lookup band).map (fun r => (r.band, r.index)) =
      (lastRadio done band).map fun x => ([x.1.band], x.2)) ?_ radios [] c ?_
  · rintro done x c' ⟨hassociations, hcounters, hradios⟩
    refine (yields_updateRadio x).mono ?_
    rintro _ ⟨radio, hband, hindex, rfl⟩
    refine ⟨hassociations, hcounters, fun band => ?_⟩
    rw [lastRadio_append]
    split
    · rename_i hb
      rw [hb, AList.lookup_insert, Option.map_some, Option.map_some, hband, hindex]
    · rename_i hb
      rw [AList.lookup_insert_ne (Ne.symm hb)]
      exact hradios band
  · exact ⟨rfl, rfl, fun band => by rw [hc]; rfl⟩

theorem yields_createLanClients (min max : UInt64) : Yields (createLanClients c min max)
    (fun c' => c'.allAssociations = c.allAssociations ∧ c'.allCounters = c.allCounters ∧
      c'.allRadios = c.allRadios) fun _ => True := by
  unfold createLanClients
  exact yields_true.bind fun _ _ => yields_true.map fun _ _ => ⟨rfl, rfl, rfl⟩

theorem yields_filled (config : Configuration) (c : Device) :
    Yields (updateConfiguration d config c) (Filled c.allCounters config) fun _ => True := by
  unfold updateConfiguration
  have hbuilt := Tables.fills_built.onInterfaces (d := d)
    (c := { c with allAssociations := ∅, allLanClients := [], allRadios := ∅, bssidIndex := 1 })
    ⟨by simp, by simp, by simp⟩ config
  have hcounters := (fills_counters c.allCounters).onInterfaces (d := d)
    (c := { c with allAssociations := ∅, allLanClients := [], allRadios := ∅, bssidIndex := 1 })
    ⟨id, by simp⟩ config
  refine (hbuilt.and hcounters).bind fun c₁ ⟨hc₁, hnodup, hroles⟩ => ?_
  refine (yields_createLanClients _ _).bind fun c₂ ⟨hassociations, hsame, hradios⟩ => ?_
  have hnone (band : RadioBands) : c₂.allRadios.lookup band = none := by
    rw [hradios, AList.lookup_eq_none, hc₁.radios]
    exact List.not_mem_nil
  refine (yields_radios hnone _).mono fun c₃ ⟨hassociations', hsame', hradios'⟩ => ?_
  rw [hassociations] at hassociations'
  rw [hsame] at hsame'
  exact ⟨fun l => hassociations' ▸ hc₁.associations l, fun hprior => hsame' ▸ hnodup hprior,
    fun role => hsame' ▸ hroles role, hradios'⟩

theorem role_mem_roles {config : Configuration} {l : InterfaceLocation}
    (hl : l ∈ config.locations) : l.role ∈ config.roles := by
  obtain ⟨interface, hmem, hl⟩ := List.mem_flatMap.mp hl
  refine List.mem_filterMap.mpr ⟨interface, hmem, ?_⟩
  unfold Interface.locations at hl
  split at hl
  · cases hl
  · rename_i role hrole
    obtain ⟨ssid, -, hl⟩ := List.mem_flatMap.mp hl
    obtain ⟨band, -, hl⟩ := List.mem_flatMap.mp hl
    obtain ⟨b, -, rfl⟩ := Option.map_eq_some_iff.mp (Option.mem_toList.mp hl)
    exact hrole

theorem Filled.rooted {prior : List ApInterfaceTypes} {config : Configuration}
    (h : Filled prior config c) (hprior : prior.Nodup) : Rooted c where
  nodup := h.nodup hprior
  roles l hl := (h.counters _).mpr (.inr (role_mem_roles ((h.associations l).mp hl)))

end OWLSclient

/-! ## Runs -/

namespace DeviceState

open OWLSclient

inductive Event where
  | construct (serialNumber : String) (config : Configuration) (r : Entropy)
  | update (config : Configuration) (r : Entropy)
  | report

variable (d : SimulationDetails)

/-- The state is `none` until the device is built. -/
def step : Option Device → Event → Option (Option Device)
  | none, .construct serialNumber config r =>
    (updateConfiguration d config { serialNumber } r).toOption.map fun p => some p.1
  | some c, .update config r =>
    (updateConfiguration d config c r).toOption.map fun p => some p.1
  | some c, .report => some (some (Tables.createStatePtr c))
  | _, _ => none

variable {d} {c : Device} {s u : Option Device} {e : Event}

/-- A report may insert radios, which read as before. -/
structure Reported (c u : Device) : Prop where
  counters : u.allCounters = c.allCounters
  associations : u.allAssociations = c.allAssociations
  radioAt : ∀ band, radioAt u band = radioAt c band

theorem Reported.touchRadio {c u : Device} (h : Reported c u) (band : RadioBands) :
    Reported c (Tables.touchRadio u band) := by
  unfold Tables.touchRadio
  split
  · exact h
  · rename_i hnone
    refine ⟨h.counters, h.associations, fun b => ?_⟩
    rw [← h.radioAt]
    unfold OWLSclient.radioAt
    by_cases hb : b = band
    · rw [hb, AList.lookup_insert, AList.lookup_eq_none.mpr hnone]
      rfl
    · rw [AList.lookup_insert_ne hb]

theorem Reported.touchCounters {c u : Device} (h : Reported c u) {role : ApInterfaceTypes}
    (hrole : role ∈ c.allCounters) : Reported c (Tables.touchCounters u role) :=
  ⟨(List.insert_of_mem (h.counters ▸ hrole)).trans h.counters, h.associations, h.radioAt⟩

theorem reported_createStatePtr (c : Device) : Reported c (Tables.createStatePtr c) := by
  have hinterface (u : Device) (role : ApInterfaceTypes) (hu : Reported c u) :
      Reported c (Tables.reportInterface u role) := by
    unfold Tables.reportInterface
    split
    · rename_i hrole
      rw [hu.counters] at hrole
      refine Reported.touchCounters ?_ hrole
      refine List.foldlRecOn (motive := Reported c) _ _ hu fun u hu l _ => ?_
      unfold Tables.reportAssociations
      split
      · rename_i hl
        exact (hu.touchCounters (hl ▸ hrole)).touchRadio l.band
      · exact hu
    · exact hu
  exact hinterface _ _ (hinterface _ _ ⟨rfl, rfl, fun _ => rfl⟩)

theorem Reported.rooted {u : Device} (h : Reported c u) (hc : Rooted c) : Rooted u :=
  ⟨h.counters ▸ hc.nodup, h.associations ▸ h.counters ▸ hc.roles⟩

theorem step_rooted (h : ∀ c, s = some c → Rooted c) (hu : step d s e = some u) :
    ∀ c, u = some c → Rooted c := by
  have hupdate {c₀ : Device} {config : Configuration} {r : Entropy} (hnodup : c₀.allCounters.Nodup)
      (hu : (updateConfiguration d config c₀ r).toOption.map (fun p => some p.1) = some u) :
      ∀ c, u = some c → Rooted c := by
    obtain ⟨c₁, t, hout, rfl⟩ := map_toOption_eq_some.mp hu
    rintro _ ⟨⟩
    exact ((yields_filled config c₀).of_ok hout).rooted hnodup
  cases s with
  | none =>
    cases e with
    | construct serialNumber config r => exact hupdate List.nodup_nil hu
    | update | report => cases hu
  | some c =>
    cases e with
    | construct => cases hu
    | update config r => exact hupdate (h c rfl).nodup hu
    | report =>
      cases hu
      rintro _ ⟨⟩
      exact (reported_createStatePtr c).rooted (h c rfl)

/-- The report of a device lists every client exactly once, whatever it has gone through, exactly
when there is nobody elsewhere. -/
theorem clients_listed_iff (d : SimulationDetails) (es : List Event) :
    Always (step d) (fun s => ∀ c, s = some c → (ListsAll c ↔ NothingElsewhere c)) none es := by
  have hrooted : Always (step d) (fun s => ∀ c, s = some c → Rooted c) none es :=
    always_of_step (fun _ hc => nomatch hc) (fun _ _ _ h hu => step_rooted h hu) es
  exact fun p hp s hs c hc => listsAll_iff (hrooted p hp s hs c hc)

/-- The stations of the upstream SSID of the built-in configuration are never listed. -/
theorem upstream_stations_dropped : ¬ ∀ (d : SimulationDetails) (es : List Event),
    Always (step d) (fun s => ∀ c, s = some c → ListsAll c) none es := by
  intro h
  obtain ⟨c, t, hnew, hsized⟩ := returns_sampleDetails zeros
  have hrun : run (step sampleDetails) none
      [.construct "53494d000000" defaultConfiguration zeros] = some (some c) := by
    rw [run_cons, step]
    change Option.bind (Option.map _ (Except.toOption (new _ _ _))) _ = _
    rw [hnew]
    rfl
  have hfilled := (yields_filled (d := sampleDetails) defaultConfiguration _).of_ok hnew
  have hnone := (listsAll_iff (hfilled.rooted List.nodup_nil)).mp ((h _ _).here hrun c rfl)
  -- One station at least is on the upstream SSID.
  have hmem : (⟨.upstream, "OpenWifi-test5", .band5g⟩ : InterfaceLocation) ∈ c.allAssociations :=
    (hfilled.associations _).mpr (by decide)
  obtain ⟨as, has⟩ := Option.isSome_iff_exists.mp (AList.lookup_isSome.mpr hmem)
  have hcounters (role : ApInterfaceTypes) : role ∈ c.allCounters :=
    (hfilled.counters role).mpr (.inr (by cases role <;> decide))
  have hnil := hnone.both (hcounters _) (hcounters _) _ as has rfl
  have hpositive := (hsized.sized _ as has).1
  rw [hnil] at hpositive
  exact absurd hpositive (by decide)

end DeviceState

end Owls
