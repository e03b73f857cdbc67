import Owls.Base.Machine
import Owls.Calls
import Owls.Coordinator

/-!
# `SimulationCoordinator`: the machine

The calls of the REST handlers and of the devices, in any order with the steps of the worker
thread. The worker looks for services and reads the clock without the mutex.
-/

open Machine

namespace Owls.Coordination

open SimulationCoordinator

/-! ## The machine -/

inductive Worker where
  | asleep
  /-- It found `LookForServices_` set, and asks for the services. -/
  | looking
  | looked
  /-- It has read the clock, and waits for the mutex. -/
  | ready (now : UInt64)

structure System where
  state : State := {}
  worker : Worker := .asleep

inductive Event where
  | startSim (uuid simId : String) (uinfo : UserInfo) (found : Bool) (now : UInt64)
  | startSimJoining (runningId simId : String) (uinfo : UserInfo) (masterURI accessKey : String)
      (offset limit index : UInt64) (found : Bool) (now : UInt64)
  | stopSim (id : String) (uinfo : UserInfo) (now : UInt64) (written : Bool)
      (answered : MicroServiceMeta → Bool)
  | cancelSim (id : String) (uinfo : UserInfo) (parses : String → Bool)
      (answered : MicroServiceMeta → Bool)
  | look
  | replace (found : MicroServiceMetaVec)
  | readClock (now : UInt64)
  | sweep (later : UInt64) (written : Bool)
  | stats (c : SimStats.Call)
  /-- The REST handler of the definitions writes to their table. -/
  | definitions (db : SimulationDB)

/-- The calls on `SimStats` that the coordinator does not make. `DoPut` of the status handler
lets no index 0 through. -/
def fromDevice : SimStats.Call → Bool
  | .connect .. | .disconnect .. | .addOutMsg .. | .addInMsg .. => true
  | .updateRemoteStatus _ _ index => index != 0
  | _ => false

/-- A call that fails changes nothing. -/
def settle (s : State) : Except Errors.Msg State → State
  | .ok u => u
  | .error _ => s

variable (node : Node)

def step (s : System) : Event → Option System
  | .startSim uuid simId uinfo found now =>
    some { s with state := settle s.state (startSim node s.state uuid simId uinfo found now) }
  | .startSimJoining runningId simId uinfo masterURI accessKey offset limit index found now =>
    some { s with
      state := settle s.state (startSimJoining node s.state runningId simId uinfo masterURI
        accessKey offset limit index found now) }
  | .stopSim id uinfo now written answered =>
    some { s with
      state := settle s.state ((stopSim node s.state id uinfo now written answered).map (·.1)) }
  | .cancelSim id uinfo parses answered =>
    some { s with
      state := settle s.state ((cancelSim node s.state id uinfo parses answered).map (·.1)) }
  | .look =>
    match s.worker with
    | .asleep =>
      some { s with worker := if s.state.lookForServices && node.master then .looking else .looked }
    | _ => none
  | .replace found =>
    match s.worker with
    | .looking => some { state := { s.state with services := found }, worker := .looked }
    | _ => none
  | .readClock now =>
    match s.worker with
    | .looked => some { s with worker := .ready now }
    | _ => none
  | .sweep later written =>
    match s.worker with
    | .ready now =>
      some
        { state := SimulationCoordinator.sweep node s.state now later written, worker := .asleep }
    | _ => none
  | .stats c =>
    if fromDevice c then
      some { s with
        state := { s.state with statuses := SimStats.apply node.master s.state.statuses c } }
    else none
  | .definitions db => some { s with state := { s.state with simulationDB := db } }

/-! ## What a step can do -/

structure Start where
  runningId : String
  simId : String
  owner : String
  now : UInt64

def Event.start? : Event → Option Start
  | .startSim uuid simId uinfo _ now => some ⟨uuid, simId, uinfo.email, now⟩
  | .startSimJoining runningId simId uinfo _ _ _ _ _ _ now =>
    some ⟨runningId, simId, uinfo.email, now⟩
  | _ => none

/-- The start finds its definition in the database. -/
def Event.Finds (s : State) : Event → Prop
  | .startSim _ simId _ found _ | .startSimJoining _ simId _ _ _ _ _ _ found _ =>
    found = true ∧ (s.simulationDB.getRecord simId).isSome
  | _ => False

def stopped (s : State) (id : String) (r : SimulationRecord) (now : UInt64) (written : Bool) :
    State :=
  let ended := { s with statuses := SimStats.endSim now s.statuses r.runner.runningId }
  eraseSimulation (recordResult node ended r written) id r

def cancelled (s : State) (id : String) (r : SimulationRecord) : State :=
  { eraseSimulation { s with statuses := SimStats.setState s.statuses r.runner.runningId "none" }
      id r with
    lookForServices := true }

inductive Stepped (s : System) : Event → System → Prop where
  | started {e : Event} {r : RunnerArguments} {now : UInt64}
      (he : e.start? = some ⟨r.runningId, r.details.id, r.uinfo.email, now⟩)
      (hfinds : e.Finds s.state) :
    Stepped s e { s with state := addSimulation node s.state r now }
  | refused {e : Event} : Stepped s e s
  | stopped {id : String} {uinfo : UserInfo} {now : UInt64} {written : Bool}
      {answered : MicroServiceMeta → Bool} {r : SimulationRecord}
      (hr : s.state.simulations[id]? = some r) :
    Stepped s (.stopSim id uinfo now written answered)
      { s with state := stopped node s.state id r now written }
  | cancelled {id : String} {uinfo : UserInfo} {parses : String → Bool}
      {answered : MicroServiceMeta → Bool} {r : SimulationRecord}
      (hr : s.state.simulations[id]? = some r) (hmay : mayEnd uinfo r = true) :
    Stepped s (.cancelSim id uinfo parses answered) { s with state := cancelled s.state id r }
  | look (hw : s.worker = .asleep) :
    Stepped s .look
      { s with worker := if s.state.lookForServices && node.master then .looking else .looked }
  | replace {found : MicroServiceMetaVec} (hw : s.worker = .looking) :
    Stepped s (.replace found) { state := { s.state with services := found }, worker := .looked }
  | readClock {now : UInt64} (hw : s.worker = .looked) :
    Stepped s (.readClock now) { s with worker := .ready now }
  | sweep {now later : UInt64} {written : Bool} (hw : s.worker = .ready now) :
    Stepped s (.sweep later written)
      { state := SimulationCoordinator.sweep node s.state now later written, worker := .asleep }
  | stats {c : SimStats.Call} (hc : fromDevice c = true) :
    Stepped s (.stats c)
      { s with state := { s.state with statuses := SimStats.apply node.master s.state.statuses c } }
  | definitions {db : SimulationDB} :
    Stepped s (.definitions db) { s with state := { s.state with simulationDB := db } }

variable {node} {s u : System} {e : Event}

theorem startRunner_settles (simId : String) (found : Bool) (now : UInt64)
    (args : SimulationDetails → RunnerArguments) :
    (¬ (found = true ∧ (s.state.simulationDB.getRecord simId).isSome) ∧
      settle s.state (startRunner node s.state simId found now args) = s.state) ∨
    (found = true ∧ (s.state.simulationDB.getRecord simId).isSome) ∧
      ∃ details, details.id = simId ∧
        settle s.state (startRunner node s.state simId found now args) =
          addSimulation node s.state (args details) now := by
  unfold startRunner
  cases found with
  | false => exact .inl ⟨by simp, rfl⟩
  | true =>
    simp only [if_true, true_and]
    cases hget : s.state.simulationDB.getRecord simId with
    | none => exact .inl ⟨by simp, rfl⟩
    | some details =>
      exact .inr ⟨rfl, details, s.state.simulationDB.id_eq simId details hget, rfl⟩

theorem stepped_of_step (h : step node s e = some u) : Stepped node s e u := by
  cases e with
  | startSim uuid simId uinfo found now =>
    cases h
    unfold startSim
    rcases startRunner_settles simId found now _ with ⟨-, hsame⟩ | ⟨hfinds, details, hid, hadd⟩
    · rw [hsame]
      exact .refused
    · rw [hadd]
      exact .started (by rw [Event.start?, hid]) hfinds
  | startSimJoining runningId simId uinfo masterURI accessKey offset limit index found now =>
    cases h
    unfold startSimJoining
    rcases startRunner_settles simId found now _ with ⟨-, hsame⟩ | ⟨hfinds, details, hid, hadd⟩
    · rw [hsame]
      exact .refused
    · rw [hadd]
      exact .started (by rw [Event.start?, hid]) hfinds
  | stopSim id uinfo now written answered =>
    cases h
    unfold stopSim
    split
    · exact .refused
    · rename_i r hr
      split
      · exact .stopped hr
      · exact .refused
  | cancelSim id uinfo parses answered =>
    cases h
    unfold cancelSim
    split
    · exact .refused
    · rename_i r hr
      split
      · rename_i hmay
        exact .cancelled hr hmay
      · exact .refused
  | look =>
    simp only [step] at h
    split at h <;> cases h
    rename_i hw
    exact .look hw
  | replace found =>
    simp only [step] at h
    split at h <;> cases h
    rename_i hw
    exact .replace hw
  | readClock now =>
    simp only [step] at h
    split at h <;> cases h
    rename_i hw
    exact .readClock hw
  | sweep later written =>
    simp only [step] at h
    split at h <;> cases h
    rename_i hw
    exact .sweep hw
  | stats c =>
    simp only [step] at h
    split at h <;> cases h
    rename_i hc
    exact .stats hc
  | definitions db =>
    cases h
    exact .definitions

theorem step_of_finds (hfinds : e.Finds s.state) (h : step node s e = some u) :
    ∃ r now, u = { s with state := addSimulation node s.state r now } := by
  cases e with
  | startSim uuid simId uinfo found now =>
    cases h
    unfold startSim
    rcases startRunner_settles simId found now _ with ⟨hnot, -⟩ | ⟨-, details, -, hadd⟩
    · exact absurd hfinds hnot
    · rw [hadd]
      exact ⟨_, _, rfl⟩
  | startSimJoining runningId simId uinfo masterURI accessKey offset limit index found now =>
    cases h
    unfold startSimJoining
    rcases startRunner_settles simId found now _ with ⟨hnot, -⟩ | ⟨-, details, -, hadd⟩
    · exact absurd hfinds hnot
    · rw [hadd]
      exact ⟨_, _, rfl⟩
  | stopSim | cancelSim | look | replace | readClock | sweep | stats | definitions =>
    exact hfinds.elim

theorem step_cancelSim {id : String} {uinfo : UserInfo} {parses : String → Bool}
    {answered : MicroServiceMeta → Bool} {r : SimulationRecord}
    (hr : s.state.simulations[id]? = some r) (hmay : mayEnd uinfo r = true) :
    step node s (.cancelSim id uinfo parses answered) =
      some { s with state := cancelled s.state id r } := by
  simp only [step, cancelSim, hr, hmay, if_true]
  rfl

theorem stopped_simulations (t : State) (id : String) (r : SimulationRecord) (now : UInt64)
    (written : Bool) :
    (stopped node t id r now written).simulations = t.simulations.erase id := by
  simp only [stopped, eraseSimulation, recordResult]
  split <;> rfl

theorem stopped_lookForServices (t : State) (id : String) (r : SimulationRecord) (now : UInt64)
    (written : Bool) : (stopped node t id r now written).lookForServices = t.lookForServices := by
  simp only [stopped, eraseSimulation, recordResult]
  split <;> rfl

theorem shrinks_of_step (he : e.start? = none) (hu : step node s e = some u) :
    Shrinks s.state u.state := by
  cases stepped_of_step hu with
  | started he' => cases he.symm.trans he'
  | stopped => exact shrinks_of_erase _ (stopped_simulations ..)
  | cancelled => exact shrinks_of_erase _ rfl
  | sweep => exact sweep_shrinks _ _ _
  | refused | stats | look | replace | readClock | definitions => exact .refl

end Owls.Coordination
