import Owls.SimStats

/-!
# The calls on `SimStats`

Each call holds the mutex for its whole body, and acts on the slots of one simulation.
-/

namespace Owls.SimStats

inductive Call where
  | startSim (now : UInt64) (services : MicroServiceMetaVec) (id : String)
      (details : SimulationDetails) (uinfo : UserInfo)
  | removeSim (id : String)
  | connect (now : UInt64) (id : String)
  | disconnect (id : String)
  | addOutMsg (id : String) (n : Int64)
  | addInMsg (id : String) (n : Int64)
  | endSim (now : UInt64) (id : String)
  | setState (id : String) (state : String)
  | updateRemoteStatus (now : UInt64) (simStatus : SimulationStatus) (index : UInt64)

/-- The simulation that the call is about. -/
def Call.id : Call → String
  | .startSim _ _ id _ _ | .removeSim id | .connect _ id | .disconnect id | .addOutMsg id _
  | .addInMsg id _ | .endSim _ id | .setState id _ => id
  | .updateRemoteStatus _ simStatus _ => simStatus.id

variable (master : Bool)

def apply (ss : Statuses) : Call → Statuses
  | .startSim now services id details uinfo => startSim master now services ss id details uinfo
  | .removeSim id => removeSim ss id
  | .connect now id => connect master now ss id
  | .disconnect id => disconnect ss id
  | .addOutMsg id n => addOutMsg ss id n
  | .addInMsg id n => addInMsg ss id n
  | .endSim now id => endSim now ss id
  | .setState id state => setState ss id state
  | .updateRemoteStatus now simStatus index => updateRemoteStatus master now ss simStatus index

/-- The call as a step of a machine. -/
def step (ss : Statuses) (c : Call) : Option Statuses := some (apply master ss c)

/-! ## What a call does to the slots -/

def Slots.modifyFirst (f : SimulationStatus → SimulationStatus) (v : Slots) : Slots :=
  { v with first := f v.first }

def Slots.live (v : Slots) : UInt64 := v.toList.foldl (fun n s => n + s.liveDevices) 0

/-- The number of devices is reached, and was not before. -/
def Slots.Reaches (v : Slots) : Prop :=
  v.first.timeToFullDevices = 0 ∧ v.first.expectedDevices = v.live

instance (v : Slots) : Decidable v.Reaches := inferInstanceAs (Decidable (_ ∧ _))

/-- `UpdateConnections`. -/
def Slots.updated (now : UInt64) (v : Slots) : Slots :=
  if master = true ∧ v.Reaches then
    v.modifyFirst fun s => { s with timeToFullDevices := now - s.startTime }
  else v

/-- The slot that `StartSim` makes. -/
def started (now : UInt64) (id : String) (details : SimulationDetails) (uinfo : UserInfo) :
    SimulationStatus :=
  { expectedDevices := details.devices, id := id, simulationId := details.id,
    state := "running", startTime := now, owner := uinfo.email }

def Slots.start (services : MicroServiceMetaVec) (s : SimulationStatus) : Option Slots → Slots
  | none => ⟨s, List.replicate (if master then services.toList.length else 0) s⟩
  | some v =>
    { v with
      rest := v.rest ++ List.replicate ((if master then services.toList.length else 0) + 1) s }

def Slots.report (now : UInt64) (simStatus : SimulationStatus) (index : UInt64) (v : Slots) :
    Slots :=
  if index.toNat < v.toList.length then (v.set index.toNat simStatus).updated master now else v

/-- What a call makes of the slots of its simulation. -/
def Call.onSlots : Call → Option Slots → Option Slots
  | .startSim now services id details uinfo, v =>
    some (Slots.start master services (started now id details uinfo) v)
  | .removeSim _, _ => none
  | .connect now _, v => v.map fun v =>
    (v.modifyFirst fun s => { s with liveDevices := s.liveDevices + 1 }).updated master now
  | .disconnect _, v => v.map <| Slots.modifyFirst fun s =>
    if s.liveDevices ≠ 0 then { s with liveDevices := s.liveDevices - 1 } else s
  | .addOutMsg _ n, v => v.map <| Slots.modifyFirst fun s =>
    { s with msgsTx := s.msgsTx + 1, tx := s.tx + n.toUInt64 }
  | .addInMsg _ n, v => v.map <| Slots.modifyFirst fun s =>
    { s with rx := s.rx + n.toUInt64, msgsRx := s.msgsRx + 1 }
  | .endSim now _, v => v.map <| Slots.modifyFirst fun s =>
    { s with state := "completed", endTime := now }
  | .setState _ state, v => v.map <| Slots.modifyFirst fun s => { s with state := state }
  | .updateRemoteStatus now simStatus index, v => v.map <| Slots.report master now simStatus index

variable {master} {ss : Statuses} {id id' : String} {now : UInt64}

theorem getElem?_insert (v : Slots) :
    (ss.insert id v)[id']? = if id = id' then some v else ss[id']? := by
  simp only [Std.ExtTreeMap.getElem?_insert, Std.compare_eq_iff_eq]

theorem getElem?_modifyFirst (f : SimulationStatus → SimulationStatus) :
    (ss.modifyFirst id f)[id']? =
      if id = id' then (ss[id']?).map (Slots.modifyFirst f) else ss[id']? := by
  unfold Statuses.modifyFirst
  split
  · rename_i hv
    split
    · rename_i hid
      rw [← hid, hv, Option.map_none]
    · rfl
  · rename_i v hv
    rw [getElem?_insert]
    split
    · rename_i hid
      rw [← hid, hv]
      rfl
    · rfl

theorem getElem?_updateConnections :
    (updateConnections master now ss id)[id']? =
      if id = id' then (ss[id']?).map (Slots.updated master now) else ss[id']? := by
  unfold updateConnections
  split
  · rename_i hv
    split
    · rename_i hid
      rw [← hid, hv, Option.map_none]
    · rfl
  · rename_i v hv
    by_cases hid : id = id'
    · subst hid
      simp only [if_true, hv, Option.map_some, Slots.updated, Slots.Reaches, Slots.live]
      split
      · rename_i hmaster
        simp only [hmaster, true_and]
        split
        · rw [getElem?_modifyFirst, if_pos rfl, hv, Option.map_some]
        · exact hv
      · rename_i hmaster
        simp only [hmaster, Bool.false_eq_true, false_and, if_false, hv]
    · rw [if_neg hid]
      split
      · dsimp only
        split
        · rw [getElem?_modifyFirst, if_neg hid]
        · rfl
      · rfl

theorem getElem?_apply_of_ne {c : Call} (hid : c.id ≠ id) : (apply master ss c)[id]? = ss[id]? := by
  cases c with
  | startSim now services id' details uinfo =>
    simp only [apply, startSim, Call.id] at hid ⊢
    split <;> rw [getElem?_insert, if_neg hid]
  | removeSim id' =>
    simp only [apply, removeSim, Std.ExtTreeMap.getElem?_erase, Std.compare_eq_iff_eq]
    exact if_neg hid
  | connect now id' =>
    simp only [apply, connect, Call.id] at hid ⊢
    split
    · rfl
    · rw [getElem?_updateConnections, if_neg hid, getElem?_modifyFirst, if_neg hid]
  | updateRemoteStatus now simStatus index =>
    simp only [apply, updateRemoteStatus, Call.id] at hid ⊢
    split
    · rfl
    · split
      · rw [getElem?_updateConnections, if_neg hid, getElem?_insert, if_neg hid]
      · rfl
  | disconnect | addOutMsg | addInMsg | endSim | setState =>
    exact (getElem?_modifyFirst _).trans (if_neg hid)

theorem getElem?_apply_self (c : Call) :
    (apply master ss c)[c.id]? = c.onSlots master ss[c.id]? := by
  cases c with
  | startSim now services id details uinfo =>
    simp only [apply, startSim, Call.id, Call.onSlots]
    split <;> rename_i hv <;> rw [getElem?_insert, if_pos rfl, hv] <;> rfl
  | removeSim id => exact Std.ExtTreeMap.getElem?_erase_self
  | connect now id =>
    simp only [apply, connect, Call.id, Call.onSlots]
    split
    · rename_i hv
      rw [hv, Option.map_none]
    · rw [getElem?_updateConnections, if_pos rfl, getElem?_modifyFirst, if_pos rfl, Option.map_map]
      rfl
  | updateRemoteStatus now simStatus index =>
    simp only [apply, updateRemoteStatus, Call.id, Call.onSlots]
    split
    · rename_i hv
      rw [hv, Option.map_none]
    · rename_i v hv
      rw [hv, Option.map_some, Slots.report]
      split
      · rw [getElem?_updateConnections, if_pos rfl, getElem?_insert, if_pos rfl, Option.map_some]
      · exact hv
  | disconnect | addOutMsg | addInMsg | endSim | setState =>
    exact (getElem?_modifyFirst _).trans (if_pos rfl)

theorem getElem?_apply (c : Call) :
    (apply master ss c)[id]? = if c.id = id then c.onSlots master ss[id]? else ss[id]? := by
  split
  · rename_i hid
    rw [← hid, getElem?_apply_self]
  · rename_i hid
    exact getElem?_apply_of_ne hid

/-! ## What a query reads -/

theorem getCurrent_congr {ss' : Statuses} (h : ss[id]? = ss'[id]?) (result : SimulationStatus)
    (uinfo : UserInfo) :
    getCurrent master ss id result uinfo = getCurrent master ss' id result uinfo := by
  unfold getCurrent
  rw [h]

theorem getStartTime_congr {ss' : Statuses} (h : ss[id]? = ss'[id]?) :
    getStartTime ss id = getStartTime ss' id := by
  unfold getStartTime
  rw [h]

end Owls.SimStats
