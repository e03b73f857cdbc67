import Owls.MockElements
import Owls.Validate

/-!
# `UpdateConfiguration`

What a simulated device makes of its configuration: associations on every band of every SSID,
LAN clients and radios.
-/

open Draw

namespace Owls

/-! ## Serial numbers -/

namespace Utils

def isSpace (c : Char) : Bool := c = ' ' || (9 ≤ c.toNat && c.toNat ≤ 13)

def hexDigit? (c : Char) : Option Nat :=
  if '0' ≤ c ∧ c ≤ '9' then some (c.toNat - 48)
  else if 'a' ≤ c ∧ c ≤ 'f' then some (c.toNat - 87)
  else if 'A' ≤ c ∧ c ≤ 'F' then some (c.toNat - 55)
  else none

/-- The digits from the start on, after a `0x` that a digit follows. -/
def hexDigits (cs : List Char) : List Nat :=
  let cs :=
    match cs with
    | '0' :: x :: d :: rest =>
      if (x = 'x' ∨ x = 'X') ∧ (hexDigit? d).isSome then d :: rest else cs
    | _ => cs
  ((cs.map hexDigit?).takeWhile Option.isSome).filterMap id

def ofHexDigits (negative : Bool) (digits : List Nat) : Except Failure UInt64 :=
  let n := digits.foldl (fun n d => 16 * n + d) 0
  if digits = [] then .error (.invalidArgument "stoull")
  else if n < UInt64.size then .ok (if negative then 0 - .ofNat n else .ofNat n)
  else .error (.outOfRange "stoull")

/-- `std::stoull(S, nullptr, 16)`: blanks, a sign and the digits, whatever follows. -/
def serialNumberToInt (s : String) : Except Failure UInt64 :=
  match s.toList.dropWhile isSpace with
  | '-' :: cs => ofHexDigits true (hexDigits cs)
  | '+' :: cs => ofHexDigits false (hexDigits cs)
  | cs => ofHexDigits false (hexDigits cs)

/-- The last twelve hexadecimal digits. -/
def intToSerialNumber (n : UInt64) : String :=
  .ofList ((List.range 12).reverse.map fun i => Nat.digitChar (n.toNat / 16 ^ i % 16))

def serialToMAC (serial : String) : String :=
  let cs := serial.toList
  let cs := if cs.length < 12 then cs ++ List.replicate (12 - cs.length % 12) '0' else cs.take 12
  ":".intercalate ((cs.toChunks 2).map .ofList)

end Utils

/-! ## Configurations -/

inductive ApInterfaceTypes where
  | upstream | downstream
deriving DecidableEq

structure Ssid where
  name : String
  wifiBands : List String

structure Interface where
  role : Option String
  ssids : List Ssid

/-- `txPower` is the `tx_power` of the document. -/
structure Radio where
  band : String
  channelWidth : Option UInt64 := none
  channel : Option String := none
  txPower : Option UInt64 := none

structure Configuration where
  interfaces : List Interface
  radios : List Radio

/-- `DefaultConfigurationStr`, which spells `tx-power`. -/
def defaultConfiguration : Configuration where
  interfaces :=
    [{ role := "upstream", ssids := [{ name := "OpenWifi-test5", wifiBands := ["5G"] }] },
     { role := "downstream", ssids := [{ name := "OpenWifi-test2", wifiBands := ["2G", "5G"] }] }]
  radios :=
    [{ band := "2G", channelWidth := some 20, channel := "auto" },
     { band := "5G", channelWidth := some 80, channel := "auto" }]

/-! ## Devices -/

structure InterfaceLocation where
  role : ApInterfaceTypes
  ssid : String
  band : RadioBands
deriving DecidableEq

/-- The fields of `OWLSclient` that its configuration fills in. Of the counters, which start at
zero, only the roles are kept, and of `Load_` and `Memory_` their sizes. -/
structure Device where
  serialNumber : String
  bssidIndex : UInt64 := 1
  allLanClients : List MockLanClient := []
  allAssociations : AList (fun _ : InterfaceLocation => List MockAssociation) := ∅
  allRadios : AList (fun _ : RadioBands => MockRadio) := ∅
  allCounters : List ApInterfaceTypes := []
  load : UInt64 := 1
  memory : UInt64 := 1

namespace OWLSclient

def countAssociations (c : Device) : UInt64 :=
  c.allAssociations.entries.foldl (fun total a => total + .ofNat a.2.length) 0

def setSizes (c : Device) : Device :=
  let size := .ofNat c.allLanClients.length + countAssociations c
  { c with load := size, memory := size }

def createLanClients (c : Device) (min max : UInt64) : Drawing Device := do
  let num ← MicroService.random min max
  let clients ← times num.toNat lanClient
  return setSizes { c with allLanClients := clients }

def createAssociations (c : Device) (interface : InterfaceLocation) (bssid : String)
    (min max : UInt64) : Drawing Device := do
  let numberOfAssociations ← MicroService.random min max
  let associations ← times numberOfAssociations.toNat (association bssid)
  return setSizes { c with allAssociations := c.allAssociations.insert interface associations }

def findInterfaceRole (role : String) : Option ApInterfaceTypes :=
  if role = "upstream" then some .upstream
  else if role = "downstream" then some .downstream
  else none

def findBand (band : String) : Option RadioBands :=
  if band = "2G" then some .band2g
  else if band = "5G" then some .band5g
  else if band = "6G" then some .band6g
  else none

def updateBand (d : SimulationDetails) (role : ApInterfaceTypes) (ssid : Ssid) (c : Device)
    (band : String) : Drawing Device := do
  let serial ← ofExcept (Utils.serialNumberToInt c.serialNumber)
  let bssid := Utils.serialToMAC (Utils.intToSerialNumber (serial + c.bssidIndex))
  let c := { c with bssidIndex := c.bssidIndex + 1 }
  match findBand band with
  | none => return c
  | some b => createAssociations c ⟨role, ssid.name, b⟩ bssid d.minAssociations d.maxAssociations

def updateInterface (d : SimulationDetails) (c : Device) (interface : Interface) :
    Drawing Device :=
  match interface.role.bind findInterfaceRole with
  | none => return c
  | some role => do
    let c ← interface.ssids.foldlM
      (fun c ssid => ssid.wifiBands.foldlM (updateBand d role ssid) c) c
    return { c with allCounters := c.allCounters.insert role }

/-- `std::strtoll` on digits alone, which stops at the largest number. -/
def strtoll (s : String) : UInt64 := .ofNat (min (Nat.ofDigitChars 10 s.toList 0) (2 ^ 63 - 1))

def updateRadio (c : Device) (numbered : Radio × Nat) : Drawing Device := do
  let (radio, index) := numbered
  let radioBands := (findBand radio.band).getD .band2g
  let channelWidth := radio.channelWidth.getD 20
  let channel ← match radio.channel with
    | none => OWLSutils.findAutoChannel radioBands channelWidth
    | some channel =>
      if channel.toList.all Char.isDigit then pure (strtoll channel)
      else OWLSutils.findAutoChannel radioBands channelWidth
  let (channels, frequency) ←
    ofExcept (OWLSutils.fillinFrequencies channel radioBands channelWidth)
  let phy :=
    if index = 0 then "platform/soc/c000000.wifi"
    else "platform/soc/c000000.wifi+" ++ toString index
  return { c with allRadios := c.allRadios.insert radioBands
                    { channel, channelWidth, txPower := radio.txPower.getD 23, phy, index,
                      radioBands, channels, frequency, band := [radio.band] } }

def updateConfiguration (d : SimulationDetails) (config : Configuration) (c : Device) :
    Drawing Device := do
  let c := { c with allAssociations := ∅, allLanClients := [], allRadios := ∅, bssidIndex := 1 }
  let c ← config.interfaces.foldlM (updateInterface d) c
  let c ← createLanClients c d.minClients d.maxClients
  config.radios.zipIdx.foldlM updateRadio c

/-- The constructor of `OWLSclient`, as far as its configuration goes. -/
def new (d : SimulationDetails) (serialNumber : String) : Drawing Device :=
  updateConfiguration d defaultConfiguration { serialNumber }

end OWLSclient

/-! ## What a configuration asks for -/

def Ssid.locations (role : ApInterfaceTypes) (ssid : Ssid) : List InterfaceLocation :=
  ssid.wifiBands.flatMap fun band =>
    ((OWLSclient.findBand band).map fun b => ⟨role, ssid.name, b⟩).toList

def Interface.locations (interface : Interface) : List InterfaceLocation :=
  match interface.role.bind OWLSclient.findInterfaceRole with
  | none => []
  | some role => interface.ssids.flatMap (Ssid.locations role)

def Configuration.locations (config : Configuration) : List InterfaceLocation :=
  config.interfaces.flatMap Interface.locations

/-- The roles of the interfaces, as far as they are known. -/
def Configuration.roles (config : Configuration) : List ApInterfaceTypes :=
  config.interfaces.filterMap fun interface => interface.role.bind OWLSclient.findInterfaceRole

def Within (min max : UInt64) (n : Nat) : Prop := min.toNat ≤ n ∧ n ≤ max.toNat

/-- The associations of a device: some on every location, as many as the definition says. -/
structure Associated (d : SimulationDetails) (locations : List InterfaceLocation) (c : Device) :
    Prop where
  present : ∀ l, l ∈ c.allAssociations ↔ l ∈ locations
  sized : ∀ l as, c.allAssociations.lookup l = some as →
    Within d.minAssociations d.maxAssociations as.length

structure Sized (d : SimulationDetails) (locations : List InterfaceLocation) (c : Device) :
    Prop extends Associated d locations c where
  lanClients : Within d.minClients d.maxClients c.allLanClients.length

namespace OWLSclient

variable {d : SimulationDetails} {c : Device} {role : ApInterfaceTypes} {ssid : Ssid}
  {locations : List InterfaceLocation} {n : UInt64} {serial : String}

theorem Associated.insert {l : InterfaceLocation} {as : List MockAssociation}
    (h : Associated d locations c)
    (has : Within d.minAssociations d.maxAssociations as.length) :
    Associated d (locations ++ [l])
      { c with allAssociations := c.allAssociations.insert l as } where
  present k := by
    rw [AList.mem_insert, List.mem_append, List.mem_singleton, h.present, or_comm]
  sized k bs hk := by
    by_cases hkl : k = l
    · subst hkl
      rw [AList.lookup_insert] at hk
      cases hk
      exact has
    · rw [AList.lookup_insert_ne hkl] at hk
      exact h.sized k bs hk

/-! ## The loops over the interfaces -/

/-- What the loops keep, of the locations and the roles that are done, and the errors in which
they may end. -/
structure Fills (d : SimulationDetails) (E : Failure → Prop)
    (I : List InterfaceLocation → List ApInterfaceTypes → Device → Prop) : Prop where
  serial : ∀ {locations roles c}, I locations roles c → Yields
    (ofExcept (Utils.serialNumberToInt c.serialNumber) : Drawing UInt64) (fun _ => True) E
  index : ∀ {locations roles c}, I locations roles c →
    I locations roles { c with bssidIndex := c.bssidIndex + 1 }
  create : ∀ {locations roles c}, I locations roles c → ∀ l bssid,
    Yields (createAssociations c l bssid d.minAssociations d.maxAssociations)
      (I (locations ++ [l]) roles) E
  role : ∀ {locations roles c}, I locations roles c → ∀ role,
    I locations (roles ++ [role]) { c with allCounters := c.allCounters.insert role }

section Loops

variable {E : Failure → Prop} {I : List InterfaceLocation → List ApInterfaceTypes → Device → Prop}
  {roles : List ApInterfaceTypes}

theorem Fills.onBand (h : Fills d E I) (hc : I locations roles c) (band : String) :
    Yields (updateBand d role ssid c band) (I (locations ++
      ((findBand band).map fun b => ⟨role, ssid.name, b⟩).toList) roles) E := by
  unfold updateBand
  refine (h.serial hc).bind fun _ _ => ?_
  cases findBand band with
  | none =>
    simp only [Option.map_none, Option.toList_none, List.append_nil]
    exact yields_pure (h.index hc)
  | some b => exact h.create (h.index hc) _ _

theorem Fills.onSsid (h : Fills d E I) (hc : I locations roles c) (ssid : Ssid) :
    Yields (ssid.wifiBands.foldlM (updateBand d role ssid) c)
      (I (locations ++ ssid.locations role) roles) E := by
  refine Yields.foldlM (fun done c => I (locations ++ done.flatMap fun band =>
    ((findBand band).map fun b => ⟨role, ssid.name, b⟩).toList) roles c) ?_ ssid.wifiBands [] c ?_
  · intro done band c hc
    rw [List.flatMap_append, List.flatMap_singleton, ← List.append_assoc]
    exact h.onBand hc band
  · simpa using hc

theorem Fills.onInterface (h : Fills d E I) (hc : I locations roles c) (interface : Interface) :
    Yields (updateInterface d c interface) (I (locations ++ interface.locations)
      (roles ++ (interface.role.bind findInterfaceRole).toList)) E := by
  unfold updateInterface Interface.locations
  cases interface.role.bind findInterfaceRole with
  | none =>
    simp only [Option.toList_none, List.append_nil]
    exact yields_pure hc
  | some role =>
    refine Yields.bind (P := I (locations ++ interface.ssids.flatMap (Ssid.locations role)) roles)
      ?_ fun c hc => yields_pure (h.role hc role)
    refine Yields.foldlM (fun done c =>
      I (locations ++ done.flatMap (Ssid.locations role)) roles c) ?_ interface.ssids [] c ?_
    · intro done ssid c hc
      rw [List.flatMap_append, List.flatMap_singleton, ← List.append_assoc]
      exact h.onSsid hc ssid
    · simpa using hc

theorem Fills.onInterfaces (h : Fills d E I) (hc : I [] [] c) (config : Configuration) :
    Yields (config.interfaces.foldlM (updateInterface d) c)
      (I config.locations config.roles) E := by
  refine Yields.foldlM (fun done c => I (done.flatMap Interface.locations)
    (done.filterMap fun interface => interface.role.bind findInterfaceRole) c) ?_
    config.interfaces [] c hc
  intro done interface c hc
  have hroles : [interface].filterMap (fun i => i.role.bind findInterfaceRole) =
      (interface.role.bind findInterfaceRole).toList := by
    cases h : interface.role.bind findInterfaceRole <;> simp [h]
  rw [List.flatMap_append, List.flatMap_singleton, List.filterMap_append, hroles]
  exact h.onInterface hc interface

end Loops

/-! ## A configuration that goes through -/

theorem within_of_random {min max n : UInt64} (h : min ≤ n ∧ n < max) : Within min max n.toNat := by
  rw [UInt64.le_iff_toNat_le, UInt64.lt_iff_toNat_lt] at h
  exact ⟨h.1, Nat.le_of_lt h.2⟩

def Filling (d : SimulationDetails) (serial : String) (locations : List InterfaceLocation)
    (c : Device) : Prop :=
  c.serialNumber = serial ∧ Associated d locations c

theorem returns_createAssociations (hd : d.minAssociations < d.maxAssociations)
    (h : Filling d serial locations c) (l : InterfaceLocation) (bssid : String) :
    Returns (createAssociations c l bssid d.minAssociations d.maxAssociations)
      (Filling d serial (locations ++ [l])) := by
  unfold createAssociations
  refine (returns_random hd).bind fun n hn => ?_
  refine ((returns_association bssid).times n.toNat).map fun as has => ?_
  have hwithin : Within d.minAssociations d.maxAssociations as.length := by
    rw [has]
    exact within_of_random hn
  obtain ⟨hserial, hassoc⟩ := h
  have hnew := Associated.insert (l := l) hassoc hwithin
  exact ⟨hserial, hnew.present, hnew.sized⟩

theorem returns_interfaces (hd : d.minAssociations < d.maxAssociations)
    (hn : Utils.serialNumberToInt serial = .ok n) (h : Filling d serial [] c)
    (config : Configuration) :
    Returns (config.interfaces.foldlM (updateInterface d) c)
      (Filling d serial config.locations) := by
  have hfills : Fills d (fun _ => False) fun locations _ c => Filling d serial locations c := by
    constructor
    · rintro locations roles c ⟨hserial, -⟩
      rw [hserial]
      exact ((returns_ofExcept hn).mono fun _ _ => trivial).yields
    · exact fun hc => ⟨hc.1, hc.2.present, hc.2.sized⟩
    · exact fun hc l bssid => (returns_createAssociations hd hc l bssid).yields
    · exact fun hc role => ⟨hc.1, hc.2.present, hc.2.sized⟩
  exact returns_of_yields (hfills.onInterfaces h config)

theorem returns_createLanClients (hd : d.minClients < d.maxClients)
    (h : Associated d locations c) :
    Returns (createLanClients c d.minClients d.maxClients) (Sized d locations) := by
  unfold createLanClients
  refine (returns_random hd).bind fun n hn => ?_
  refine (returns_lanClient.times n.toNat).map fun cs hcs => ?_
  refine ⟨⟨h.present, h.sized⟩, ?_⟩
  simp only [setSizes, hcs]
  exact within_of_random hn

theorem returns_interfaces_of_ne (hd : d.minAssociations ≠ d.maxAssociations)
    (hn : Utils.serialNumberToInt serial = .ok n) (h : c.serialNumber = serial)
    (config : Configuration) :
    Returns (config.interfaces.foldlM (updateInterface d) c) fun _ => True := by
  have hfills : Fills d (fun _ => False) fun _ _ c => c.serialNumber = serial := by
    constructor
    · intro locations roles c hserial
      rw [hserial]
      exact ((returns_ofExcept hn).mono fun _ _ => trivial).yields
    · exact fun hc => hc
    · intro locations roles c hc l bssid
      unfold createAssociations
      apply Returns.yields
      refine (returns_random_of_ne hd).bind fun n _ => ?_
      refine ((returns_association bssid).times n.toNat).map fun _ _ => ?_
      exact hc
    · exact fun hc _ => hc
  exact (returns_of_yields (hfills.onInterfaces h config)).mono fun _ _ => trivial

theorem returns_createLanClients_of_ne (hd : d.minClients ≠ d.maxClients) :
    Returns (createLanClients c d.minClients d.maxClients) fun _ => True := by
  unfold createLanClients
  exact (returns_random_of_ne hd).bind fun n _ =>
    (returns_lanClient.times n.toNat).map fun _ _ => trivial

/-! ### The radios of the built-in configuration -/

theorem returns_autoChannel {P Q : Device → Prop} {radio : Radio} {band : RadioBands}
    {width : UInt64} {index : Nat}
    (hband : findBand radio.band = some band) (hwidth : radio.channelWidth = some width)
    (hchannel : radio.channel = some "auto")
    (hpick : Returns (OWLSutils.findAutoChannel band width) fun channel =>
      ∃ filled, OWLSutils.fillinFrequencies channel band width = .ok filled)
    (hPQ : ∀ c radio, P c → Q { c with allRadios := c.allRadios.insert band radio }) (hc : P c) :
    Returns (updateRadio c (radio, index)) Q := by
  unfold updateRadio
  simp only [hband, hwidth, hchannel, Option.getD_some]
  rw [if_neg (by decide)]
  refine hpick.bind fun channel hfill => ?_
  obtain ⟨filled, hfill⟩ := hfill
  exact (returns_ofExcept hfill).bind fun _ _ => returns_pure (hPQ c _ hc)

theorem returns_auto2G : Returns (OWLSutils.findAutoChannel .band2g 20) fun channel =>
    ∃ filled, OWLSutils.fillinFrequencies channel .band2g 20 = .ok filled := by
  have hpick : Returns (OWLSutils.pick OWLSutils.channels2G 0) (· ∈ OWLSutils.channels2G) :=
    returns_pick (by decide)
  apply hpick.mono
  intro channel hmem
  have hall : OWLSutils.channels2G.all fun ch => 1 ≤ ch ∧ ch ≤ 11 := by decide
  have hrange := of_decide_eq_true (List.all_eq_true.mp hall channel hmem)
  simp only [OWLSutils.fillinFrequencies, if_pos hrange]
  exact ⟨_, rfl⟩

theorem returns_auto5G : Returns (OWLSutils.findAutoChannel .band5g 80) fun channel =>
    ∃ filled, OWLSutils.fillinFrequencies channel .band5g 80 = .ok filled := by
  have hpick : Returns (OWLSutils.pick OWLSutils.channels5G 3) (· ∈ OWLSutils.channels5G) :=
    returns_pick (by decide)
  apply hpick.mono
  intro channel hmem
  have hall : OWLSutils.channels5G.all fun ch => 36 ≤ ch ∧ ch ≤ 165 := by decide
  have hrange := of_decide_eq_true (List.all_eq_true.mp hall channel hmem)
  simp only [OWLSutils.fillinFrequencies, if_pos hrange]
  exact ⟨_, rfl⟩

theorem returns_radios {P Q R : Device → Prop}
    (hPQ : ∀ c radio, P c → Q { c with allRadios := c.allRadios.insert .band2g radio })
    (hQR : ∀ c radio, Q c → R { c with allRadios := c.allRadios.insert .band5g radio })
    (hc : P c) : Returns (defaultConfiguration.radios.zipIdx.foldlM updateRadio c) R := by
  refine (returns_autoChannel rfl rfl rfl returns_auto2G hPQ hc).bind fun c hc => ?_
  refine (returns_autoChannel rfl rfl rfl returns_auto5G hQR hc).bind fun c hc => ?_
  exact returns_pure hc

theorem Sized.radio (h : Sized d locations c) (band : RadioBands) (radio : MockRadio) :
    Sized d locations { c with allRadios := c.allRadios.insert band radio } :=
  ⟨⟨h.present, h.sized⟩, h.lanClients⟩

/-! ## The two draws -/

theorem stops_createAssociations (hd : d.minAssociations = d.maxAssociations)
    (l : InterfaceLocation) (bssid : String) :
    Stops (createAssociations c l bssid d.minAssociations d.maxAssociations)
      .divisionByZero := by
  unfold createAssociations
  rw [hd]
  exact stops_random.bind

theorem stops_createLanClients (hd : d.minClients = d.maxClients) :
    Stops (createLanClients c d.minClients d.maxClients) .divisionByZero := by
  unfold createLanClients
  rw [hd]
  exact stops_random.bind

theorem stops_updateConfiguration {e : Failure}
    (h : ∀ c' : Device, c'.serialNumber = c.serialNumber → ∀ ssid,
      Stops (updateBand d .upstream ssid c' "5G") e) :
    Stops (updateConfiguration d defaultConfiguration c) e := by
  unfold updateConfiguration
  apply Stops.bind
  simp only [defaultConfiguration, List.foldlM_cons]
  apply Stops.bind
  unfold updateInterface
  simp only [Option.bind_some, findInterfaceRole, if_true, List.foldlM_cons]
  apply Stops.bind
  apply Stops.bind
  apply Stops.bind
  apply h
  rfl

theorem stops_updateBand (hn : Utils.serialNumberToInt c.serialNumber = .ok n)
    (hd : d.minAssociations = d.maxAssociations) :
    Stops (updateBand d role ssid c "5G") .divisionByZero := by
  unfold updateBand
  refine (returns_ofExcept hn).stops fun _ _ => ?_
  exact stops_createAssociations hd _ _

/-! ## Building a client -/

theorem serialNumberToInt_ne (serial : String) :
    Utils.serialNumberToInt serial ≠ .error .divisionByZero := by
  have hdigits : ∀ negative digits,
      Utils.ofHexDigits negative digits ≠ .error .divisionByZero := by
    intro negative digits
    unfold Utils.ofHexDigits
    simp only
    split
    · simp
    · split <;> simp
  unfold Utils.serialNumberToInt
  split <;> apply hdigits

/-- `std::stoull` reads a number off the serial number. -/
def Numbered (serial : String) : Prop := ∃ n, Utils.serialNumberToInt serial = .ok n

def Apart (d : SimulationDetails) : Prop :=
  d.minAssociations < d.maxAssociations ∧ d.minClients < d.maxClients

theorem returns_new (hn : Numbered serial) (hd : Apart d) :
    Returns (new d serial) (Sized d defaultConfiguration.locations) := by
  obtain ⟨n, hn⟩ := hn
  obtain ⟨hassociations, hclients⟩ := hd
  have hstart : Filling d serial [] { serialNumber := serial } :=
    ⟨rfl, ⟨fun l => by simp, fun l as has => by cases has⟩⟩
  unfold new updateConfiguration
  refine (returns_interfaces hassociations hn hstart _).bind fun c hc => ?_
  refine (returns_createLanClients hclients hc.2).bind fun c hc => ?_
  exact returns_radios (fun _ radio hc => Sized.radio hc _ radio)
    (fun _ radio hc => Sized.radio hc _ radio) hc

theorem returns_new_of_ne (hn : Numbered serial)
    (hassociations : d.minAssociations ≠ d.maxAssociations)
    (hclients : d.minClients ≠ d.maxClients) : Returns (new d serial) fun _ => True := by
  obtain ⟨n, hn⟩ := hn
  unfold new updateConfiguration
  refine (returns_interfaces_of_ne hassociations hn rfl _).bind fun c _ => ?_
  refine (returns_createLanClients_of_ne hclients).bind fun c hc => ?_
  exact returns_radios (P := fun _ => True) (Q := fun _ => True) (fun _ _ _ => trivial)
    (fun _ _ _ => trivial) hc

theorem stops_new_of_eq (hn : Numbered serial)
    (hd : d.minAssociations = d.maxAssociations ∨ d.minClients = d.maxClients) :
    Stops (new d serial) .divisionByZero := by
  obtain ⟨n, hn⟩ := hn
  by_cases heq : d.minAssociations = d.maxAssociations
  · apply stops_updateConfiguration
    intro c hc ssid
    apply stops_updateBand _ heq
    · exact n
    · rw [hc]
      exact hn
  · unfold new updateConfiguration
    refine (returns_interfaces_of_ne heq hn rfl _).stops fun c _ => ?_
    exact (stops_createLanClients (hd.resolve_left heq)).bind

theorem stops_new (hn : Numbered serial) (hd : ¬ Apart d)
    (hassociations : d.minAssociations ≤ d.maxAssociations)
    (hclients : d.minClients ≤ d.maxClients) :
    Stops (new d serial) .divisionByZero := by
  apply stops_new_of_eq hn
  by_cases hlt : d.minAssociations < d.maxAssociations
  · exact .inr (UInt64.le_antisymm hclients (UInt64.not_lt.mp fun h => hd ⟨hlt, h⟩))
  · exact .inl (UInt64.le_antisymm hassociations (UInt64.not_lt.mp hlt))

theorem stops_new_unnumbered (hn : ¬ Numbered serial) :
    ∃ e, e ≠ Failure.divisionByZero ∧ Stops (new d serial) e := by
  cases hserial : Utils.serialNumberToInt serial with
  | ok n => exact absurd ⟨n, hserial⟩ hn
  | error e =>
    refine ⟨e, ?_, ?_⟩
    · rintro rfl
      exact serialNumberToInt_ne serial hserial
    · apply stops_updateConfiguration
      intro c hc ssid
      unfold updateBand
      apply Stops.bind
      apply stops_ofExcept
      rw [hc]
      exact hserial

theorem new_ok_iff (d : SimulationDetails) (serial : String) (r : Entropy) :
    (∃ c t, new d serial r = .ok (c, t)) ↔
      d.minAssociations ≠ d.maxAssociations ∧ d.minClients ≠ d.maxClients ∧ Numbered serial := by
  by_cases hn : Numbered serial
  · by_cases heq : d.minAssociations = d.maxAssociations ∨ d.minClients = d.maxClients
    · rw [stops_new_of_eq hn heq r]
      simp only [reduceCtorEq, exists_false, false_iff]
      tauto
    · obtain ⟨hassociations, hclients⟩ := not_or.mp heq
      obtain ⟨c, t, hnew, -⟩ := returns_new_of_ne hn hassociations hclients r
      exact iff_of_true ⟨c, t, hnew⟩ ⟨hassociations, hclients, hn⟩
  · obtain ⟨e, -, hstops⟩ := stops_new_unnumbered (d := d) hn
    rw [hstops r]
    simp [hn]

/-- No remainder by zero, and the right numbers of a client that is built. -/
def Sound (d : SimulationDetails) : Except Failure (Device × Entropy) → Prop
  | .ok (c, _) => Sized d defaultConfiguration.locations c
  | .error e => e ≠ .divisionByZero

/-- Building a client is sound exactly when both pairs of bounds leave room, or nothing is drawn;
and it gives a client exactly when they leave room and the serial number is a number. -/
theorem new_sound_iff (d : SimulationDetails) (hvalid : validateSimulation d = true)
    (serial : String) (r : Entropy) :
    (Sound d (new d serial r) ↔ Apart d ∨ ¬ Numbered serial) ∧
    ((∃ c t, new d serial r = .ok (c, t)) ↔ Apart d ∧ Numbered serial) := by
  have hbounds := ((validateSimulation_iff d).mp hvalid).2
  by_cases hn : Numbered serial
  · by_cases hd : Apart d
    · obtain ⟨c, t, hnew, hsized⟩ := returns_new hn hd r
      rw [hnew]
      exact ⟨iff_of_true hsized (.inl hd), iff_of_true ⟨c, t, rfl⟩ ⟨hd, hn⟩⟩
    · have hnew := stops_new hn hd hbounds.associations hbounds.clients r
      rw [hnew]
      constructor
      · simp [Sound, hd, hn]
      · simp [hd]
  · obtain ⟨e, hne, hstops⟩ := stops_new_unnumbered (d := d) hn
    rw [hstops r]
    constructor
    · exact iff_of_true hne (.inr hn)
    · simp [hn]

def sampleDetails : SimulationDetails :=
  { name := "s", gateway := "gw", deviceType := "x64_vm", macPrefix := "53494d" }

def zeros : Entropy := ⟨fun _ => 0, fun _ => 0, fun _ => 0⟩

theorem sample_built : ∃ c t, new sampleDetails "53494d000000" zeros = .ok (c, t) :=
  (new_sound_iff sampleDetails (by decide) "53494d000000" zeros).2.mpr
    ⟨⟨by decide, by decide⟩, ⟨_, rfl⟩⟩

def twoClients : SimulationDetails := { sampleDetails with minClients := 2, maxClients := 2 }

/-- A definition that asks for exactly two LAN clients is valid, and traps. -/
theorem equal_bounds_trap :
    ¬ ∀ (d : SimulationDetails) (serial : String) (r : Entropy), validateSimulation d = true →
      Sound d (new d serial r) := by
  have hnumbered : Numbered "53494d000000" := ⟨_, rfl⟩
  have hapart : ¬ Apart twoClients := fun hd => absurd hd.2 (by decide)
  have htraps : Stops (new twoClients "53494d000000") .divisionByZero :=
    stops_new hnumbered hapart (by decide) (by decide)
  intro h
  -- A variable stands for the source: nothing is to be drawn from it.
  obtain ⟨r⟩ : Nonempty Entropy := ⟨zeros⟩
  have hsound := h twoClients "53494d000000" r (by decide)
  rw [htraps r] at hsound
  exact hsound rfl

theorem returns_sampleDetails : Returns (new sampleDetails "53494d000000")
    (Sized sampleDetails defaultConfiguration.locations) :=
  returns_new ⟨_, rfl⟩ ⟨by decide, by decide⟩

end OWLSclient

end Owls
