import Owls.Query
import Owls.SimStats
import Owls.Storage

/-!
# `SimulationCoordinator`

The simulations that run on this node. Every function below holds the coordinator's mutex
for its whole body, apart from the `StartSim` that a secondary uses.
-/

namespace Owls.SimulationCoordinator

/-! ## State -/

structure RunnerArguments where
  details : SimulationDetails
  runningId : String
  uinfo : UserInfo
  masterURI : String := ""
  accessKey : String := ""
  offset : UInt64 := 0
  limit : UInt64 := 0
  index : UInt64 := 0
deriving DecidableEq

structure SimulationRecord where
  details : SimulationDetails
  runner : RunnerArguments
  uinfo : UserInfo
deriving DecidableEq

def SimulationRecord.new (r : RunnerArguments) : SimulationRecord :=
  { details := r.details, runner := r, uinfo := r.uinfo }

structure Node where
  master : Bool := true
  privateEndPoint : String := ""
  accessKey : String := ""

structure State where
  simulations : Std.ExtTreeMap String SimulationRecord := ∅
  statuses : SimStats.Statuses := ∅
  services : MicroServiceMetaVec := {}
  lookForServices : Bool := true
  simulationDB : SimulationDB := {}
  resultsDB : SimulationResultsDB := []

variable (node : Node)

/-! ## Starting -/

def isSimulationRunning (s : State) (id : String) : Bool :=
  s.simulations.toList.any fun p => p.2.details.id == id

/-- The common end of both `StartSim`: the record, then its statistics. -/
def addSimulation (s : State) (r : RunnerArguments) (now : UInt64) : State :=
  { s with
    lookForServices := false
    simulations := s.simulations.insert r.runningId (.new r)
    statuses := SimStats.startSim node.master now s.services s.statuses r.runningId r.details
      r.uinfo }

/-- What both `StartSim` do for a definition. `found`: the database serves `GetRecord`. -/
def startRunner (s : State) (simId : String) (found : Bool) (now : UInt64)
    (r : SimulationDetails → RunnerArguments) : Except Errors.Msg State :=
  match (if found then s.simulationDB.getRecord simId else none) with
  | none => .error Errors.simulationDoesNotExist
  | some newSim => .ok (addSimulation node s (r newSim) now)

/-- The `StartSim` of a master, which creates the running id `uuid`. -/
def startSim (s : State) (uuid simId : String) (uinfo : UserInfo) (found : Bool) (now : UInt64) :
    Except Errors.Msg State :=
  startRunner node s simId found now fun details =>
    { details, runningId := uuid, uinfo, masterURI := node.privateEndPoint,
      accessKey := node.accessKey }

/-- The `StartSim` of a secondary. -/
def startSimJoining (s : State) (runningId simId : String) (uinfo : UserInfo)
    (masterURI accessKey : String) (offset limit index : UInt64) (found : Bool) (now : UInt64) :
    Except Errors.Msg State :=
  startRunner node s simId found now fun details =>
    { details, runningId, uinfo, masterURI, accessKey, offset, limit, index }

/-! ## Ending -/

/-- The requests that a loop over `PostAPI` gets to make. A service that answers with no JSON
document leaves a null pointer, whose use ends the loop. -/
def issue {α : Type} (answered : α → Bool) : List α → List α × Bool
  | [] => ([], true)
  | r :: rs =>
    if answered r then
      let (sent, completed) := issue answered rs
      (r :: sent, completed)
    else ([r], false)

theorem issue_prefix {α : Type} (answered : α → Bool) (l : List α) :
    (issue answered l).1 <+: l := by
  induction l with
  | nil => exact List.prefix_rfl
  | cons r l ih =>
    unfold issue
    split
    · exact (List.prefix_cons_inj r).mpr ih
    · exact (List.prefix_cons_inj r).mpr (List.nil_prefix)

theorem issue_completed {α : Type} {answered : α → Bool} {l : List α}
    (h : (issue answered l).2 = true) : (issue answered l).1 = l := by
  induction l with
  | nil => rfl
  | cons r l ih =>
    unfold issue at h ⊢
    split at h
    · rename_i ha
      simp only [ha, if_true]
      rw [ih h]
    · cases h

theorem issue_of_answered {α : Type} {answered : α → Bool} {l : List α}
    (h : ∀ r ∈ l, answered r = true) : (issue answered l).2 = true := by
  induction l with
  | nil => rfl
  | cons r l ih =>
    rw [List.forall_mem_cons] at h
    simp only [issue, h.1, if_true]
    exact ih h.2

structure RemoteRequest where
  service : MicroServiceMeta
  operation : String
  runningId : String
  simulationId : String

def remoteRequests (operation : String) (services : List MicroServiceMeta)
    (status : SimulationStatus) : List RemoteRequest :=
  services.map fun service => ⟨service, operation, status.id, status.simulationId⟩

def stopRemoteSimulation (s : State) (id : String) (uinfo : UserInfo)
    (answered : MicroServiceMeta → Bool) : List RemoteRequest :=
  let status := SimStats.getCurrent node.master s.statuses id {} uinfo
  (issue (answered ·.service) (remoteRequests "stop" s.services.toList status)).1

/-- The loop also makes a URI of each public end point, to no use: one that does not parse ends
the loop. -/
def cancelRemoteSimulation (s : State) (id : String) (uinfo : UserInfo) (parses : String → Bool)
    (answered : MicroServiceMeta → Bool) : List RemoteRequest :=
  let status := SimStats.getCurrent node.master s.statuses id {} uinfo
  let services := s.services.toList.takeWhile (parses ·.publicEndPoint)
  (issue (answered ·.service) (remoteRequests "cancel" services status)).1

def mayEnd (uinfo : UserInfo) (r : SimulationRecord) : Bool :=
  uinfo.userRole = .root || uinfo.email = r.uinfo.email

def eraseSimulation (s : State) (id : String) (r : SimulationRecord) : State :=
  { s with
    statuses := SimStats.removeSim s.statuses r.runner.runningId
    simulations := s.simulations.erase id }

def recordResult (s : State) (r : SimulationRecord) (written : Bool) : State :=
  if node.master then
    let status := SimStats.getCurrent node.master s.statuses r.runner.runningId {} r.uinfo
    { s with resultsDB := s.resultsDB.createRecord status written }
  else s

def stopSim (s : State) (id : String) (uinfo : UserInfo) (now : UInt64) (written : Bool)
    (answered : MicroServiceMeta → Bool) : Except Errors.Msg (State × List RemoteRequest) :=
  match s.simulations[id]? with
  | none => .error Errors.simulationDoesNotExist
  | some r =>
    if mayEnd uinfo r then
      let s := { s with statuses := SimStats.endSim now s.statuses r.runner.runningId }
      let s := recordResult node s r written
      let sent := if node.master then stopRemoteSimulation node s id r.uinfo answered else []
      .ok (eraseSimulation s id r, sent)
    else .error Errors.accessDenied

def cancelSim (s : State) (id : String) (uinfo : UserInfo) (parses : String → Bool)
    (answered : MicroServiceMeta → Bool) : Except Errors.Msg (State × List RemoteRequest) :=
  match s.simulations[id]? with
  | none => .error Errors.simulationDoesNotExist
  | some r =>
    if mayEnd uinfo r then
      let s := { s with statuses := SimStats.setState s.statuses r.runner.runningId "none" }
      let sent :=
        if node.master then cancelRemoteSimulation node s id r.uinfo parses answered else []
      .ok ({ eraseSimulation s id r with lookForServices := true }, sent)
    else .error Errors.accessDenied

/-! ## The worker thread -/

/-- The services that the loop looks up before it takes the mutex. -/
def refreshServices (s : State) (found : MicroServiceMetaVec) : State :=
  if s.lookForServices && node.master then { s with services := found } else s

def expired (s : State) (now : UInt64) (id : String) (r : SimulationRecord) : Bool :=
  r.details.simulationLength ≠ 0 &&
    now - SimStats.getStartTime s.statuses id > r.details.simulationLength

/-- `now` was read before the mutex was taken, and `later` is read under it. -/
def sweepOne (now later : UInt64) (written : Bool) (s : State) (p : String × SimulationRecord) :
    State :=
  let (id, r) := p
  if expired s now id r then
    let s := { s with statuses := SimStats.endSim later s.statuses id }
    let s :=
      if node.master then
        let status := SimStats.getCurrent node.master s.statuses id {} r.uinfo
        { s with resultsDB := s.resultsDB.createRecord status written }
      else s
    { s with
      statuses := SimStats.removeSim s.statuses id
      simulations := s.simulations.erase id }
  else s

/-- One iteration of `run` under the mutex. -/
def sweep (s : State) (now later : UInt64) (written : Bool) : State :=
  let s := s.simulations.toList.foldl (sweepOne node now later written) s
  if s.simulations.isEmpty then { s with lookForServices := true } else s

/-! ## What a function does to the map -/

def Shrinks (s u : State) : Prop :=
  ∀ (id : String) (r : SimulationRecord),
    u.simulations[id]? = some r → s.simulations[id]? = some r

def Running (s : State) (simId : String) : Prop :=
  ∃ (id : String) (r : SimulationRecord), s.simulations[id]? = some r ∧ r.details.id = simId

variable {node} {s t u : State} {simId : String}

theorem Shrinks.refl : Shrinks s s := fun _ _ h => h

theorem Shrinks.trans (h : Shrinks s t) (h' : Shrinks t u) : Shrinks s u :=
  fun id r hr => h id r (h' id r hr)

theorem shrinks_of_erase (id : String) (h : u.simulations = s.simulations.erase id) :
    Shrinks s u := by
  intro id' r hr
  rw [h, Std.ExtTreeMap.getElem?_erase] at hr
  split at hr
  · cases hr
  · exact hr

theorem isSimulationRunning_iff : isSimulationRunning s simId = true ↔ Running s simId := by
  simp only [isSimulationRunning, List.any_eq_true, Prod.exists, beq_iff_eq, Running,
    Std.ExtTreeMap.mem_toList_iff_getElem?_eq_some]

theorem startRunner_ok {found : Bool} {now : UInt64} {r : SimulationDetails → RunnerArguments}
    (h : startRunner node s simId found now r = .ok u) :
    ∃ details, s.simulationDB.getRecord simId = some details ∧ details.id = simId ∧
      u = addSimulation node s (r details) now := by
  unfold startRunner at h
  split at h
  · cases h
  · rename_i details hget
    split at hget
    · exact ⟨details, hget, s.simulationDB.id_eq simId details hget, (Except.ok.inj h).symm⟩
    · cases hget

theorem stopSim_shrinks {id : String} {uinfo : UserInfo} {now : UInt64} {written : Bool}
    {answered : MicroServiceMeta → Bool} {sent : List RemoteRequest}
    (h : stopSim node s id uinfo now written answered = .ok (u, sent)) : Shrinks s u := by
  unfold stopSim at h
  split at h
  · cases h
  · split at h
    · cases h
      refine shrinks_of_erase id ?_
      simp only [eraseSimulation, recordResult]
      split <;> rfl
    · cases h

theorem cancelSim_shrinks {id : String} {uinfo : UserInfo} {parses : String → Bool}
    {answered : MicroServiceMeta → Bool} {sent : List RemoteRequest}
    (h : cancelSim node s id uinfo parses answered = .ok (u, sent)) : Shrinks s u := by
  unfold cancelSim at h
  split at h
  · cases h
  · split at h
    · cases h
      exact shrinks_of_erase id rfl
    · cases h

theorem sweepOne_shrinks (now later : UInt64) (written : Bool) (p : String × SimulationRecord) :
    Shrinks s (sweepOne node now later written s p) := by
  unfold sweepOne
  simp only
  split
  · refine shrinks_of_erase p.1 ?_
    split <;> rfl
  · exact .refl

theorem sweep_shrinks (now later : UInt64) (written : Bool) :
    Shrinks s (sweep node s now later written) := by
  have hfold : ∀ l : List (String × SimulationRecord), ∀ s,
      Shrinks s (l.foldl (sweepOne node now later written) s) := by
    intro l
    induction l with
    | nil => exact fun _ => .refl
    | cons p l ih => exact fun s => (sweepOne_shrinks now later written p).trans (ih _)
  unfold sweep
  simp only
  split
  · exact fun id r hr => hfold _ s id r hr
  · exact hfold _ s

end Owls.SimulationCoordinator
