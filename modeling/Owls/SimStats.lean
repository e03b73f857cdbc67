import Mathlib.Tactic.Common
import Owls.Objects

/-!
# `SimStats`

The statistics of every running simulation: one slot for this node, and on the master one
more for each remote service.
-/

namespace Owls.SimStats

/-- The slots of one simulation, never empty. -/
structure Slots where
  first : SimulationStatus
  rest : List SimulationStatus := []
deriving DecidableEq

def Slots.toList (v : Slots) : List SimulationStatus := v.first :: v.rest

def Slots.set (v : Slots) (index : Nat) (s : SimulationStatus) : Slots :=
  match index with
  | 0 => { v with first := s }
  | k + 1 => { v with rest := v.rest.set k s }

abbrev Statuses := Std.ExtTreeMap String Slots

def Statuses.modifyFirst (ss : Statuses) (id : String) (f : SimulationStatus → SimulationStatus) :
    Statuses :=
  match ss[id]? with
  | none => ss
  | some v => ss.insert id { v with first := f v.first }

/-! ## Live devices -/

def updateConnections (master : Bool) (now : UInt64) (ss : Statuses) (id : String) : Statuses :=
  match ss[id]? with
  | none => ss
  | some v =>
    if master then
      let devicesNow := v.toList.foldl (fun n s => n + s.liveDevices) 0
      if v.first.timeToFullDevices = 0 ∧ v.first.expectedDevices = devicesNow then
        ss.modifyFirst id fun s => { s with timeToFullDevices := now - s.startTime }
      else ss
    else ss

def connect (master : Bool) (now : UInt64) (ss : Statuses) (id : String) : Statuses :=
  match ss[id]? with
  | none => ss
  | some _ =>
    updateConnections master now
      (ss.modifyFirst id fun s => { s with liveDevices := s.liveDevices + 1 }) id

def disconnect (ss : Statuses) (id : String) : Statuses :=
  ss.modifyFirst id fun s =>
    if s.liveDevices ≠ 0 then { s with liveDevices := s.liveDevices - 1 } else s

/-! ## Traffic -/

/-- `N` is an `int64_t`, and its sum with `tx` is unsigned. -/
def addOutMsg (ss : Statuses) (id : String) (n : Int64) : Statuses :=
  ss.modifyFirst id fun s => { s with msgsTx := s.msgsTx + 1, tx := s.tx + n.toUInt64 }

def addInMsg (ss : Statuses) (id : String) (n : Int64) : Statuses :=
  ss.modifyFirst id fun s => { s with rx := s.rx + n.toUInt64, msgsRx := s.msgsRx + 1 }

/-! ## Simulations -/

def startSim (master : Bool) (now : UInt64) (services : MicroServiceMetaVec) (ss : Statuses)
    (id : String) (details : SimulationDetails) (uinfo : UserInfo) : Statuses :=
  let s : SimulationStatus :=
    { expectedDevices := details.devices, id := id, simulationId := details.id,
      state := "running", startTime := now, owner := uinfo.email }
  let more := if master then services.toList.length else 0
  match ss[id]? with
  | none => ss.insert id ⟨s, List.replicate more s⟩
  | some v => ss.insert id { v with rest := v.rest ++ List.replicate (more + 1) s }

def endSim (now : UInt64) (ss : Statuses) (id : String) : Statuses :=
  ss.modifyFirst id fun s => { s with state := "completed", endTime := now }

def removeSim (ss : Statuses) (id : String) : Statuses := ss.erase id

def setState (ss : Statuses) (id : String) (state : String) : Statuses :=
  ss.modifyFirst id fun s => { s with state := state }

def getStartTime (ss : Statuses) (id : String) : UInt64 :=
  match ss[id]? with
  | none => 0
  | some v => v.first.startTime

/-- `GetCurrentNoLock`, which leaves `result` alone when there is nothing to show. -/
def getCurrent (master : Bool) (ss : Statuses) (id : String) (result : SimulationStatus)
    (uinfo : UserInfo) : SimulationStatus :=
  match ss[id]? with
  | none => result
  | some v =>
    if uinfo.userRole = .root ∨ uinfo.email = v.first.owner then
      if master then
        let zeroed := { result with liveDevices := 0, rx := 0, tx := 0, msgsRx := 0, msgsTx := 0,
                                    errorDevices := 0 }
        let total := v.toList.foldl (fun a b : SimulationStatus =>
          { liveDevices := a.liveDevices + b.liveDevices, rx := a.rx + b.rx, tx := a.tx + b.tx,
            msgsRx := a.msgsRx + b.msgsRx, msgsTx := a.msgsTx + b.msgsTx,
            errorDevices := a.errorDevices + b.errorDevices }) zeroed
        { total with
          state := v.first.state, id := v.first.id, simulationId := v.first.simulationId,
          startTime := v.first.startTime, endTime := v.first.endTime, owner := v.first.owner,
          expectedDevices := v.first.expectedDevices,
          timeToFullDevices := v.first.timeToFullDevices }
      else v.first
    else result

def getAllSimulations (master : Bool) (ss : Statuses) (uinfo : UserInfo) :
    List SimulationStatus :=
  ss.toList.filterMap fun (id, status) =>
    if uinfo.userRole = .root ∨ uinfo.email = status.first.owner then
      some (getCurrent master ss id {} uinfo)
    else none

/-! ## Reports of the other nodes -/

/-- The simulation is the one that the report names. -/
def updateRemoteStatus (master : Bool) (now : UInt64) (ss : Statuses)
    (simStatus : SimulationStatus) (index : UInt64) : Statuses :=
  match ss[simStatus.id]? with
  | none => ss
  | some v =>
    if index.toNat < v.toList.length then
      updateConnections master now
        (ss.insert simStatus.id (v.set index.toNat simStatus)) simStatus.id
    else ss

/-! ## The live devices of this node -/

/-- Slot 0, or nothing to count for a simulation that is not there. -/
def liveDevices (ss : Statuses) (id : String) : UInt64 :=
  match ss[id]? with
  | none => 0
  | some v => v.first.liveDevices

variable {ss : Statuses} {id : String} {f : SimulationStatus → SimulationStatus} {v : Slots}

theorem modifyFirst_of_mem (h : ss[id]? = some v) :
    (ss.modifyFirst id f)[id]? = some { v with first := f v.first } := by
  simp [Statuses.modifyFirst, h]

theorem liveDevices_modifyFirst (h : ss[id]? = some v) :
    liveDevices (ss.modifyFirst id f) id = (f v.first).liveDevices := by
  simp [liveDevices, modifyFirst_of_mem h]

theorem isSome_modifyFirst : ((ss.modifyFirst id f)[id]?).isSome = (ss[id]?).isSome := by
  cases h : ss[id]? with
  | none => simp [Statuses.modifyFirst, h]
  | some v => simp [modifyFirst_of_mem h]

theorem liveDevices_updateConnections (master : Bool) (now : UInt64) :
    liveDevices (updateConnections master now ss id) id = liveDevices ss id := by
  unfold updateConnections
  split
  · rfl
  · rename_i v hv
    split
    · simp only
      split
      · rw [liveDevices_modifyFirst hv]
        simp [liveDevices, hv]
      · rfl
    · rfl

theorem isSome_updateConnections (master : Bool) (now : UInt64) :
    ((updateConnections master now ss id)[id]?).isSome = (ss[id]?).isSome := by
  unfold updateConnections
  split
  · rfl
  · split
    · simp only
      split
      · exact isSome_modifyFirst
      · rfl
    · rfl

theorem isSome_connect (master : Bool) (now : UInt64) :
    ((connect master now ss id)[id]?).isSome = (ss[id]?).isSome := by
  unfold connect
  split
  · rfl
  · rw [isSome_updateConnections, isSome_modifyFirst]

theorem isSome_disconnect : ((disconnect ss id)[id]?).isSome = (ss[id]?).isSome :=
  isSome_modifyFirst

theorem liveDevices_connect (master : Bool) (now : UInt64) (h : (ss[id]?).isSome) :
    liveDevices (connect master now ss id) id = liveDevices ss id + 1 := by
  obtain ⟨v, hv⟩ := Option.isSome_iff_exists.mp h
  unfold connect
  rw [hv]
  simp only
  rw [liveDevices_updateConnections, liveDevices_modifyFirst hv]
  simp [liveDevices, hv]

theorem liveDevices_disconnect :
    (liveDevices (disconnect ss id) id).toNat = (liveDevices ss id).toNat - 1 := by
  cases hv : ss[id]? with
  | none => simp [disconnect, Statuses.modifyFirst, liveDevices, hv]
  | some v =>
    rw [disconnect, liveDevices_modifyFirst hv]
    simp only [liveDevices, hv]
    split
    · rename_i hne
      have hpos : 1 ≤ v.first.liveDevices.toNat := by
        rw [Nat.one_le_iff_ne_zero, ne_eq, ← UInt64.toNat_zero, UInt64.toNat_inj]
        exact hne
      exact UInt64.toNat_sub_of_le _ _ (UInt64.le_iff_toNat_le.mpr hpos)
    · rename_i hz
      rw [ne_eq, not_not] at hz
      simp [hz]

end Owls.SimStats
