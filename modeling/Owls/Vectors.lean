import Owls.Calls

/-!
# The vectors of `SimStats`

`Statuses_` maps to vectors, which may be empty: below, `none` is an access to slot 0 of an
empty one. The slots of `SimStats` refine these vectors, and no access of theirs is `none`.
-/

namespace Owls.SimStats

abbrev Vectors := Std.ExtTreeMap String (List SimulationStatus)

namespace Vectors

/-! ## The functions -/

def modifyFirst (vs : Vectors) (id : String) (f : SimulationStatus → SimulationStatus) :
    Option Vectors :=
  match vs[id]? with
  | none => some vs
  | some v => (v[0]?).map fun first => vs.insert id (v.set 0 (f first))

def updateConnections (master : Bool) (now : UInt64) (vs : Vectors) (id : String) :
    Option Vectors :=
  match vs[id]? with
  | none => some vs
  | some v =>
    if master then do
      let devicesNow := v.foldl (fun n s => n + s.liveDevices) 0
      let first ← v[0]?
      if first.timeToFullDevices = 0 ∧ first.expectedDevices = devicesNow then
        vs.modifyFirst id fun s => { s with timeToFullDevices := now - s.startTime }
      else some vs
    else some vs

def connect (master : Bool) (now : UInt64) (vs : Vectors) (id : String) : Option Vectors :=
  match vs[id]? with
  | none => some vs
  | some _ => do
    let vs ← vs.modifyFirst id fun s => { s with liveDevices := s.liveDevices + 1 }
    updateConnections master now vs id

/-- `operator[]` of the map makes the vector where there is none. -/
def startSim (master : Bool) (now : UInt64) (services : MicroServiceMetaVec) (vs : Vectors)
    (id : String) (details : SimulationDetails) (uinfo : UserInfo) : Vectors :=
  let n := if master then (services.size + 1).toNat else 1
  vs.insert id ((vs[id]?).getD [] ++ List.replicate n (started now id details uinfo))

def updateRemoteStatus (master : Bool) (now : UInt64) (vs : Vectors)
    (simStatus : SimulationStatus) (index : UInt64) : Option Vectors :=
  match vs[simStatus.id]? with
  | none => some vs
  | some v =>
    if index.toNat < v.length then
      updateConnections master now
        (vs.insert simStatus.id (v.set index.toNat simStatus)) simStatus.id
    else some vs

def apply (master : Bool) (vs : Vectors) : Call → Option Vectors
  | .startSim now services id details uinfo =>
    some (startSim master now services vs id details uinfo)
  | .removeSim id => some (vs.erase id)
  | .connect now id => connect master now vs id
  | .disconnect id => vs.modifyFirst id fun s =>
    if s.liveDevices ≠ 0 then { s with liveDevices := s.liveDevices - 1 } else s
  | .addOutMsg id n => vs.modifyFirst id fun s =>
    { s with msgsTx := s.msgsTx + 1, tx := s.tx + n.toUInt64 }
  | .addInMsg id n => vs.modifyFirst id fun s =>
    { s with rx := s.rx + n.toUInt64, msgsRx := s.msgsRx + 1 }
  | .endSim now id => vs.modifyFirst id fun s => { s with state := "completed", endTime := now }
  | .setState id state => vs.modifyFirst id fun s => { s with state := state }
  | .updateRemoteStatus now simStatus index => updateRemoteStatus master now vs simStatus index

def getStartTime (vs : Vectors) (id : String) : Option UInt64 :=
  match vs[id]? with
  | none => some 0
  | some v => (v[0]?).map (·.startTime)

def getCurrent (master : Bool) (vs : Vectors) (id : String) (result : SimulationStatus)
    (uinfo : UserInfo) : Option SimulationStatus :=
  match vs[id]? with
  | none => some result
  | some v => do
    let first ← v[0]?
    if uinfo.userRole = .root ∨ uinfo.email = first.owner then
      if master then
        let zeroed := { result with liveDevices := 0, rx := 0, tx := 0, msgsRx := 0, msgsTx := 0,
                                    errorDevices := 0 }
        let total := v.foldl (fun a b : SimulationStatus =>
          { liveDevices := a.liveDevices + b.liveDevices, rx := a.rx + b.rx, tx := a.tx + b.tx,
            msgsRx := a.msgsRx + b.msgsRx, msgsTx := a.msgsTx + b.msgsTx,
            errorDevices := a.errorDevices + b.errorDevices }) zeroed
        return { total with
          state := first.state, id := first.id, simulationId := first.simulationId,
          startTime := first.startTime, endTime := first.endTime, owner := first.owner,
          expectedDevices := first.expectedDevices,
          timeToFullDevices := first.timeToFullDevices }
      else return first
    else return result

def getAllSimulations (master : Bool) (vs : Vectors) (uinfo : UserInfo) :
    Option (List SimulationStatus) :=
  vs.toList.filterMapM fun (id, status) => do
    let first ← status[0]?
    if uinfo.userRole = .root ∨ uinfo.email = first.owner then
      (getCurrent master vs id {} uinfo).map some
    else return none

end Vectors

/-! ## The slots as vectors -/

def Statuses.vectors (ss : Statuses) : Vectors := ss.map fun _ v => v.toList

variable {ss : Statuses} {id : String} {master : Bool} {now : UInt64}

@[simp] theorem getElem?_vectors : ss.vectors[id]? = (ss[id]?).map Slots.toList :=
  Std.ExtTreeMap.getElem?_map

theorem vectors_insert (v : Slots) :
    Statuses.vectors (ss.insert id v) = ss.vectors.insert id v.toList := by
  apply Std.ExtTreeMap.ext_getElem?
  intro id'
  simp only [getElem?_vectors, Std.ExtTreeMap.getElem?_insert]
  split <;> rfl

theorem vectors_erase : Statuses.vectors (ss.erase id) = ss.vectors.erase id := by
  apply Std.ExtTreeMap.ext_getElem?
  intro id'
  simp only [getElem?_vectors, Std.ExtTreeMap.getElem?_erase]
  split <;> rfl

@[simp] theorem toList_getElem?_zero (v : Slots) : v.toList[0]? = some v.first := rfl

theorem toList_set (v : Slots) (k : Nat) (s : SimulationStatus) :
    (v.set k s).toList = v.toList.set k s := by
  cases k <;> rfl

theorem modifyFirst_vectors (f : SimulationStatus → SimulationStatus) :
    ss.vectors.modifyFirst id f = some (ss.modifyFirst id f).vectors := by
  simp only [Vectors.modifyFirst, Statuses.modifyFirst, getElem?_vectors]
  cases ss[id]? with
  | none => rfl
  | some v => simp [vectors_insert, Slots.toList]

theorem updateConnections_vectors :
    Vectors.updateConnections master now ss.vectors id =
      some (updateConnections master now ss id).vectors := by
  simp only [Vectors.updateConnections, updateConnections, getElem?_vectors]
  cases ss[id]? with
  | none => rfl
  | some v =>
    simp only [Option.map_some, toList_getElem?_zero, Option.bind_eq_bind, Option.bind_some,
      modifyFirst_vectors]
    cases master with
    | false => rfl
    | true =>
      simp only [if_true]
      split <;> rfl

theorem length_started (services : MicroServiceMetaVec) :
    (if master then (services.size + 1).toNat else 1) =
      (if master then services.toList.length else 0) + 1 := by
  rw [services.toNat_size_add_one]
  split <;> rfl

theorem apply_vectors (c : Call) :
    Vectors.apply master ss.vectors c = some (apply master ss c).vectors := by
  cases c with
  | startSim now services id details uinfo =>
    simp only [Vectors.apply, Vectors.startSim, apply, startSim, getElem?_vectors, length_started]
    cases ss[id]? with
    | none | some v => simp [vectors_insert, Slots.toList, started, List.replicate_succ]
  | removeSim id => exact congrArg some vectors_erase.symm
  | connect now id =>
    simp only [Vectors.apply, Vectors.connect, apply, connect, getElem?_vectors]
    cases ss[id]? with
    | none => rfl
    | some v => simp [modifyFirst_vectors, updateConnections_vectors]
  | updateRemoteStatus now simStatus index =>
    simp only [Vectors.apply, Vectors.updateRemoteStatus, apply, updateRemoteStatus,
      getElem?_vectors]
    cases ss[simStatus.id]? with
    | none => rfl
    | some v =>
      simp only [Option.map_some, ← toList_set, ← vectors_insert, updateConnections_vectors]
      split <;> rfl
  | disconnect | addOutMsg | addInMsg | endSim | setState => exact modifyFirst_vectors _

theorem getStartTime_vectors : ss.vectors.getStartTime id = some (getStartTime ss id) := by
  simp only [Vectors.getStartTime, getStartTime, getElem?_vectors]
  cases ss[id]? <;> rfl

theorem getCurrent_vectors (result : SimulationStatus) (uinfo : UserInfo) :
    Vectors.getCurrent master ss.vectors id result uinfo =
      some (getCurrent master ss id result uinfo) := by
  simp only [Vectors.getCurrent, getCurrent, getElem?_vectors]
  cases ss[id]? with
  | none => rfl
  | some v =>
    simp only [Option.map_some, toList_getElem?_zero, Option.bind_eq_bind, Option.bind_some]
    split
    · split <;> rfl
    · rfl

theorem getAllSimulations_vectors (uinfo : UserInfo) :
    Vectors.getAllSimulations master ss.vectors uinfo =
      some (getAllSimulations master ss uinfo) := by
  have hlist : ss.vectors.toList = ss.toList.map fun p => (p.1, p.2.toList) :=
    Std.ExtTreeMap.toList_map
  unfold Vectors.getAllSimulations getAllSimulations
  rw [hlist]
  simp only [getCurrent_vectors, Option.map_some, Option.bind_eq_bind, Option.pure_def]
  generalize ss.toList = l
  induction l with
  | nil => rfl
  | cons p l ih =>
    simp only [List.map_cons, List.filterMapM_cons, List.filterMap_cons, toList_getElem?_zero,
      Option.bind_eq_bind, Option.bind_some]
    split <;> simp [ih]

end Owls.SimStats
