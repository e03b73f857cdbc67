import Owls.Objects

/-!
# `ValidateSimulation`

The check that the REST handler runs on a simulation definition. It tests
`healthCheckInterval` and `maxAssociations` twice, where the bounds of `stateInterval` and
`maxClients` would stand: these two have no upper bound of their own. A `Char` stands for a byte:
`size()` is the length.
-/

namespace Owls

def defaultDeviceTypeList : List String :=
  ["actiontec_web7200", "cig_wf186w", "cig_wf188n", "cig_wf194c4", "cig_wf196", "cig_wf196-ca",
   "cig_wf196-ca-ath12", "cig_wf196-us", "cig_wf610d", "cig_wf660a", "cig_wf808",
   "cybertan_eww622-a1", "edgecore_eap101", "edgecore_eap101-ath12", "edgecore_eap102",
   "edgecore_eap104", "edgecore_eap104-ath12", "edgecore_ecs4100-12ph", "edgecore_ecw5211",
   "edgecore_ecw5410", "edgecore_oap100", "edgecore_spw2ac1200", "edgecore_spw2ac1200-lan-poe",
   "edgecore_ssw2ac2600", "hfcl_ion4", "hfcl_ion4x", "hfcl_ion4x_2", "hfcl_ion4xe",
   "hfcl_ion4xi", "indio_um-305ac", "indio_um-305ax", "indio_um-310ax-v1", "indio_um-325ac",
   "indio_um-510ac-v3", "indio_um-510axm-v1", "indio_um-510axp-v1", "indio_um-550ac",
   "linksys_e8450-ubi", "linksys_ea6350-v4", "linksys_ea8300", "liteon_wpx8324",
   "meshpp_s618_cp01", "meshpp_s618_cp03", "udaya_a5-id2", "wallys_dr40x9", "wallys_dr6018",
   "wallys_dr6018_v4", "x64_vm", "yuncore_ax840", "yuncore_fap640", "yuncore_fap650"]

def gooDeviceType (d : String) : Bool := defaultDeviceTypeList.any (· == d)

def validateSimulation (s : SimulationDetails) : Bool :=
  if s.name = "" ∨
      s.gateway = "" ∨
      s.deviceType = "" ∨
      ¬ gooDeviceType s.deviceType ∨
      s.maxClients < s.minClients ∨
      s.maxAssociations < s.minAssociations ∨
      s.devices < 1 ∨ s.devices > 1000000 ∨
      s.healthCheckInterval < 30 ∨ s.healthCheckInterval > 600 ∨
      s.stateInterval < 30 ∨ s.healthCheckInterval > 600 ∨
      s.minAssociations > 4 ∨
      s.maxAssociations > 64 ∨
      s.minClients > 4 ∨
      s.maxAssociations > 16 ∨
      s.keepAlive < 120 ∨ s.keepAlive > 3000 ∨
      s.reconnectInterval < 10 ∨ s.reconnectInterval > 300 ∨
      s.concurrentDevices < 1 ∨ s.concurrentDevices > 1000 ∨
      s.threads < 4 ∨ s.threads > 1024 ∨
      s.macPrefix.length ≠ 6 then
    false
  else true

structure ValidFields (s : SimulationDetails) : Prop where
  name : s.name ≠ ""
  gateway : s.gateway ≠ ""
  deviceType : s.deviceType ≠ "" ∧ gooDeviceType s.deviceType = true
  devices : 1 ≤ s.devices ∧ s.devices ≤ 1000000
  healthCheckInterval : 30 ≤ s.healthCheckInterval ∧ s.healthCheckInterval ≤ 600
  stateInterval : 30 ≤ s.stateInterval
  minAssociations : s.minAssociations ≤ 4
  maxAssociations : s.maxAssociations ≤ 16
  minClients : s.minClients ≤ 4
  keepAlive : 120 ≤ s.keepAlive ∧ s.keepAlive ≤ 3000
  reconnectInterval : 10 ≤ s.reconnectInterval ∧ s.reconnectInterval ≤ 300
  concurrentDevices : 1 ≤ s.concurrentDevices ∧ s.concurrentDevices ≤ 1000
  threads : 4 ≤ s.threads ∧ s.threads ≤ 1024
  macPrefix : s.macPrefix.length = 6

/-- The two checks that compare fields with each other. -/
structure OrderedPairs (s : SimulationDetails) : Prop where
  clients : s.minClients ≤ s.maxClients
  associations : s.minAssociations ≤ s.maxAssociations

theorem validateSimulation_iff (s : SimulationDetails) :
    validateSimulation s = true ↔ ValidFields s ∧ OrderedPairs s := by
  simp only [validateSimulation, Bool.if_false_left, Bool.and_true, Bool.not_eq_true',
    decide_eq_false_iff_not, not_or, gt_iff_lt, UInt64.not_lt, not_not]
  constructor
  · rintro ⟨h1, h2, h3, h4, h5, h6, h7, h8, h9, h10, h11, -, h13, -, h15, h16, h17, h18, h19, h20,
      h21, h22, h23, h24, h25⟩
    exact ⟨⟨h1, h2, ⟨h3, h4⟩, ⟨h7, h8⟩, ⟨h9, h10⟩, h11, h13, h16, h15, ⟨h17, h18⟩, ⟨h19, h20⟩,
      ⟨h21, h22⟩, ⟨h23, h24⟩, h25⟩, ⟨h5, h6⟩⟩
  · rintro ⟨f, p⟩
    have h64 : s.maxAssociations ≤ 64 := UInt64.le_trans f.maxAssociations (by decide)
    exact ⟨f.name, f.gateway, f.deviceType.1, f.deviceType.2, p.clients, p.associations,
      f.devices.1, f.devices.2, f.healthCheckInterval.1, f.healthCheckInterval.2,
      f.stateInterval, f.healthCheckInterval.2, f.minAssociations, h64, f.minClients,
      f.maxAssociations, f.keepAlive.1, f.keepAlive.2, f.reconnectInterval.1,
      f.reconnectInterval.2, f.concurrentDevices.1, f.concurrentDevices.2, f.threads.1,
      f.threads.2, f.macPrefix⟩

/-! ## The documented intervals -/

/-- The intervals of the schema of `SimulationDetails`. -/
structure Documented (s : SimulationDetails) : Prop where
  name : s.name ≠ ""
  gateway : s.gateway ≠ ""
  deviceType : gooDeviceType s.deviceType = true
  macPrefix : s.macPrefix.length = 6
  clients : s.minClients ≤ s.maxClients
  associations : s.minAssociations ≤ s.maxAssociations
  devices : 1 ≤ s.devices ∧ s.devices ≤ 1000000
  healthCheckInterval : 30 ≤ s.healthCheckInterval ∧ s.healthCheckInterval ≤ 600
  stateInterval : 30 ≤ s.stateInterval ∧ s.stateInterval ≤ 600
  minAssociations : s.minAssociations ≤ 4
  maxAssociations : s.maxAssociations ≤ 64
  minClients : s.minClients ≤ 4
  maxClients : s.maxClients ≤ 16
  keepAlive : 120 ≤ s.keepAlive ∧ s.keepAlive ≤ 3000
  reconnectInterval : 10 ≤ s.reconnectInterval ∧ s.reconnectInterval ≤ 300
  concurrentDevices : 1 ≤ s.concurrentDevices ∧ s.concurrentDevices ≤ 1000
  threads : 4 ≤ s.threads ∧ s.threads ≤ 1024

/-- What the check and the schema both ask for. -/
structure InBoth (s : SimulationDetails) : Prop extends OrderedPairs s where
  name : s.name ≠ ""
  gateway : s.gateway ≠ ""
  deviceType : gooDeviceType s.deviceType = true
  macPrefix : s.macPrefix.length = 6
  devices : 1 ≤ s.devices ∧ s.devices ≤ 1000000
  healthCheckInterval : 30 ≤ s.healthCheckInterval ∧ s.healthCheckInterval ≤ 600
  stateInterval : 30 ≤ s.stateInterval
  minAssociations : s.minAssociations ≤ 4
  minClients : s.minClients ≤ 4
  keepAlive : 120 ≤ s.keepAlive ∧ s.keepAlive ≤ 3000
  reconnectInterval : 10 ≤ s.reconnectInterval ∧ s.reconnectInterval ≤ 300
  concurrentDevices : 1 ≤ s.concurrentDevices ∧ s.concurrentDevices ≤ 1000
  threads : 4 ≤ s.threads ∧ s.threads ≤ 1024

theorem not_empty_of_goo {d : String} (h : gooDeviceType d = true) : d ≠ "" := by
  rintro rfl
  exact absurd h (by decide)

theorem valid_iff_inBoth (s : SimulationDetails) :
    validateSimulation s = true ↔ InBoth s ∧ s.maxAssociations ≤ 16 := by
  rw [validateSimulation_iff]
  constructor
  · rintro ⟨f, p⟩
    exact ⟨⟨p, f.name, f.gateway, f.deviceType.2, f.macPrefix, f.devices, f.healthCheckInterval,
      f.stateInterval, f.minAssociations, f.minClients, f.keepAlive, f.reconnectInterval,
      f.concurrentDevices, f.threads⟩, f.maxAssociations⟩
  · rintro ⟨b, hmax⟩
    exact ⟨⟨b.name, b.gateway, ⟨not_empty_of_goo b.deviceType, b.deviceType⟩, b.devices,
      b.healthCheckInterval, b.stateInterval, b.minAssociations, hmax, b.minClients, b.keepAlive,
      b.reconnectInterval, b.concurrentDevices, b.threads, b.macPrefix⟩, b.toOrderedPairs⟩

theorem documented_iff_inBoth (s : SimulationDetails) :
    Documented s ↔ InBoth s ∧ s.maxAssociations ≤ 64 ∧ s.stateInterval ≤ 600 ∧
      s.maxClients ≤ 16 := by
  constructor
  · intro h
    exact ⟨⟨⟨h.clients, h.associations⟩, h.name, h.gateway, h.deviceType, h.macPrefix, h.devices,
      h.healthCheckInterval, h.stateInterval.1, h.minAssociations, h.minClients, h.keepAlive,
      h.reconnectInterval, h.concurrentDevices, h.threads⟩, h.maxAssociations, h.stateInterval.2,
      h.maxClients⟩
  · rintro ⟨b, hassociations, hstate, hclients⟩
    exact ⟨b.name, b.gateway, b.deviceType, b.macPrefix, b.clients, b.associations, b.devices,
      b.healthCheckInterval, ⟨b.stateInterval, hstate⟩, b.minAssociations, hassociations,
      b.minClients, hclients, b.keepAlive, b.reconnectInterval, b.concurrentDevices, b.threads⟩

/-- The check is the documented one exactly for the definitions that fail a bound in both, or for
which its one bound comes to the same as the three. -/
theorem validates_documented_iff (s : SimulationDetails) :
    (validateSimulation s = true ↔ Documented s) ↔
      (InBoth s → (s.maxAssociations ≤ 16 ↔
        s.maxAssociations ≤ 64 ∧ s.stateInterval ≤ 600 ∧ s.maxClients ≤ 16)) := by
  rw [valid_iff_inBoth, documented_iff_inBoth]
  exact and_congr_right_iff

def seldomState : SimulationDetails :=
  { name := "s", gateway := "gw", deviceType := "x64_vm", macPrefix := "53494d"
    stateInterval := 601 }

/-- A definition with a longer state interval is valid all the same. -/
theorem seldom_state_valid : ¬ ∀ s, validateSimulation s = true ↔ Documented s := by
  intro h
  have hdocumented := (h seldomState).mp (by decide)
  exact absurd hdocumented.stateInterval.2 (by decide)

end Owls
