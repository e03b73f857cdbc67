import Owls.Base.Machine
import Owls.Coordinator

/-!
# `RESTAPI_operation_handler`

The requests that start, stop and cancel simulations.
-/

open Machine

namespace Owls.Operation

open SimulationCoordinator

/-! ## The request -/

/-- A POST, with what the rest of the world answers while it is served. -/
structure Request where
  simId : String
  parameters : Parameters
  uinfo : UserInfo := {}
  uuid : String := ""
  now : UInt64 := 0
  found : Bool := true
  written : Bool := true
  parses : String → Bool := fun _ => true
  answered : MicroServiceMeta → Bool := fun _ => true

inductive Reply where
  | badRequest (e : Errors.Msg)
  | status (s : SimulationStatus)

/-- The answer to an operation: an error, or the statistics of `runningId`. -/
def answer (node : Node) (s : State) (r : Request) (runningId : String) :
    Except Errors.Msg State → Reply × State
  | .error e => (.badRequest e, s)
  | .ok s' => (.status (SimStats.getCurrent node.master s'.statuses runningId {} r.uinfo), s')

/-- `none`: an exception that `handleRequest` does not catch, here from `index`. -/
def doPost (node : Node) (s : State) (r : Request) (qb : QueryBlock) : Option (Reply × State) :=
  let refuse (e : Errors.Msg) : Option (Reply × State) := some (.badRequest e, s)
  if r.simId = "" then refuse Errors.missingOrInvalidParameters
  else
    match hasParameter r.parameters "operation", hasParameter r.parameters "runningId" with
    | some "start", given =>
      if node.master then
        if isSimulationRunning s (given.getD "") then refuse Errors.simulationIsAlreadyRunning
        else
          some <| answer node s r r.uuid <| startSim node s r.uuid r.simId r.uinfo r.found r.now
      else do
        let joinRunningId := getParameter r.parameters "joinRunningId" ""
        let masterURI := getParameter r.parameters "masterURI" ""
        let accessKey := getParameter r.parameters "accessKey" ""
        let index ← getParameterNumber r.parameters "index" 0
        if qb.offset = 0 ∨ qb.limit = 0 ∨ joinRunningId = "" ∨ masterURI = "" ∨ accessKey = "" ∨
            index = 0 then
          refuse Errors.missingOrInvalidParameters
        else
          some <| answer node s r joinRunningId <|
            startSimJoining node s joinRunningId r.simId r.uinfo masterURI accessKey qb.offset
              qb.limit index r.found r.now
    | some "stop", some runningId =>
      some <| answer node s r runningId <|
        (stopSim node s runningId r.uinfo r.now r.written r.answered).map (·.1)
    | some "cancel", some runningId =>
      some <| answer node s r runningId <|
        (cancelSim node s runningId r.uinfo r.parses r.answered).map (·.1)
    | _, _ => refuse Errors.missingOrInvalidParameters

/-- The request from its query string on. -/
def handleRequest (node : Node) (s : State) (r : Request) : Option (Reply × State) := do
  let qb ← initQueryBlock r.parameters
  doPost node s r qb

/-! ## Runs of a master -/

inductive Event where
  | request (r : Request)
  | refresh (found : MicroServiceMetaVec)
  | sweep (now later : UInt64) (written : Bool)
  /-- The REST handler of the definitions writes to their table. -/
  | definitions (db : SimulationDB)

/-- The node is a master, with the end point and the key of `node`. -/
def masterNode (node : Node) : Node := { node with master := true }

variable (node : Node)

def step (s : State) : Event → Option State
  | .request r =>
    match handleRequest (masterNode node) s r with
    | some (_, s') => some s'
    | none => some s
  | .refresh found => some (refreshServices (masterNode node) s found)
  | .sweep now later written =>
    some (SimulationCoordinator.sweep (masterNode node) s now later written)
  | .definitions db => some { s with simulationDB := db }

/-! ## One simulation of each definition -/

def Distinct (s : State) : Prop :=
  ∀ (id id' : String) (r r' : SimulationRecord),
    s.simulations[id]? = some r → s.simulations[id']? = some r' →
    r.details.id = r'.details.id → id = id'

structure Starts (r : Request) : Prop where
  operation : hasParameter r.parameters "operation" = some "start"
  simId : r.simId ≠ ""
  parses : (initQueryBlock r.parameters).isSome

/-- A start of a definition that runs is refused as such. -/
def Refuses (s : State) : Event → Prop
  | .request r => Starts r → Running s r.simId →
    ∀ p, handleRequest (masterNode node) s r = some p →
      p.1 = .badRequest Errors.simulationIsAlreadyRunning
  | _ => True

/-- A start of a definition that runs has a `runningId` parameter, and it is the id of a
definition that runs. -/
def NamesRunning (s : State) : Event → Prop
  | .request r => Starts r → Running s r.simId →
    Running s ((hasParameter r.parameters "runningId").getD "")
  | _ => True

variable {node} {s u : State} {r : Request}

theorem handleRequest_start (h : Starts r) :
    handleRequest (masterNode node) s r =
      if isSimulationRunning s ((hasParameter r.parameters "runningId").getD "") then
        some (.badRequest Errors.simulationIsAlreadyRunning, s)
      else
        some <| answer (masterNode node) s r r.uuid <|
          startSim (masterNode node) s r.uuid r.simId r.uinfo r.found r.now := by
  obtain ⟨qb, hqb⟩ := Option.isSome_iff_exists.mp h.parses
  simp [handleRequest, hqb, doPost, h.simId, h.operation, masterNode]

theorem answer_ne_refused (runningId : String) (found : Bool) :
    (answer (masterNode node) s r runningId
      (startSim (masterNode node) s r.uuid r.simId r.uinfo found r.now)).1 ≠
        .badRequest Errors.simulationIsAlreadyRunning := by
  unfold startSim startRunner
  split
  · simp [answer, Errors.simulationDoesNotExist, Errors.simulationIsAlreadyRunning]
  · simp [answer]

theorem refuses_iff (s : State) (e : Event) : Refuses node s e ↔ NamesRunning s e := by
  cases e with
  | refresh | sweep | definitions => simp [Refuses, NamesRunning]
  | request r =>
    simp only [Refuses, NamesRunning]
    refine forall_congr' fun hstarts => forall_congr' fun _ => ?_
    rw [handleRequest_start hstarts, ← isSimulationRunning_iff]
    split
    · rename_i hrun
      simp [hrun]
    · rename_i hrun
      simp [hrun, answer_ne_refused]

theorem Distinct.of_shrinks (h : Distinct s) (hu : Shrinks s u) : Distinct u :=
  fun id id' r r' hr hr' => h id id' r r' (hu id r hr) (hu id' r' hr')

theorem Distinct.addSimulation {a : RunnerArguments} (h : Distinct s)
    (hnew : ¬ Running s a.details.id) (now : UInt64) :
    Distinct (SimulationCoordinator.addSimulation node s a now) := by
  intro id id' r r' hr hr' heq
  simp only [SimulationCoordinator.addSimulation, Std.ExtTreeMap.getElem?_insert,
    Std.compare_eq_iff_eq] at hr hr'
  split at hr <;> split at hr'
  · rename_i hid hid'
    exact hid.symm.trans hid'
  · cases hr
    exact absurd ⟨id', r', hr', heq.symm⟩ hnew
  · cases hr'
    exact absurd ⟨id, r, hr, heq⟩ hnew
  · exact h id id' r r' hr hr' heq

theorem handleRequest_cases {reply : Reply}
    (h : handleRequest (masterNode node) s r = some (reply, u)) :
    Shrinks s u ∨
    ∃ details, Starts r ∧ details.id = r.simId ∧
      isSimulationRunning s ((hasParameter r.parameters "runningId").getD "") = false ∧
      u = SimulationCoordinator.addSimulation (masterNode node) s
        { details, runningId := r.uuid, uinfo := r.uinfo, masterURI := node.privateEndPoint,
          accessKey := node.accessKey } r.now := by
  by_cases hstarts : Starts r
  · rw [handleRequest_start hstarts] at h
    split at h
    · cases h
      exact .inl .refl
    · rename_i hrun
      cases hres : startSim (masterNode node) s r.uuid r.simId r.uinfo r.found r.now with
      | error e =>
        rw [hres] at h
        cases h
        exact .inl .refl
      | ok s' =>
        rw [hres] at h
        cases h
        obtain ⟨details, -, hid, hu⟩ := startRunner_ok hres
        exact .inr ⟨details, hstarts, hid, by simpa using hrun, hu⟩
  · left
    simp only [handleRequest, Option.bind_eq_bind, Option.bind_eq_some_iff] at h
    obtain ⟨qb, hqb, h⟩ := h
    unfold doPost at h
    simp only at h
    split at h
    · cases h
      exact .refl
    · rename_i hid
      split at h
      · rename_i hop
        exact absurd ⟨hop, hid, by simp [hqb]⟩ hstarts
      · rename_i runningId _ _
        cases hres : stopSim (masterNode node) s runningId r.uinfo r.now r.written r.answered with
        | error e =>
          rw [hres] at h
          cases h
          exact .refl
        | ok p =>
          rw [hres] at h
          cases h
          exact stopSim_shrinks hres
      · rename_i runningId _ _
        cases hres : cancelSim (masterNode node) s runningId r.uinfo r.parses r.answered with
        | error e =>
          rw [hres] at h
          cases h
          exact .refl
        | ok p =>
          rw [hres] at h
          cases h
          exact cancelSim_shrinks hres
      · cases h
        exact .refl

theorem step_distinct {e : Event} (h : Distinct s) (hG : NamesRunning s e)
    (hstep : step node s e = some u) : Distinct u := by
  cases e with
  | refresh found =>
    cases hstep
    refine h.of_shrinks fun id r hr => ?_
    unfold refreshServices at hr
    split at hr <;> exact hr
  | sweep now later written =>
    cases hstep
    exact h.of_shrinks (sweep_shrinks now later written)
  | definitions db =>
    cases hstep
    exact h.of_shrinks .refl
  | request r =>
    simp only [step] at hstep
    split at hstep
    · rename_i reply s' heq
      cases hstep
      rcases handleRequest_cases heq with hu | ⟨details, hstarts, hid, hrun, rfl⟩
      · exact h.of_shrinks hu
      · refine h.addSimulation (fun hrunning => ?_) r.now
        rw [hid] at hrunning
        have hnamed := isSimulationRunning_iff.mpr (hG hstarts hrunning)
        rw [hrun] at hnamed
        cases hnamed
    · cases hstep
      exact h

/-- A master runs no definition twice, and refuses to, in exactly the runs in which every start
of a running definition names a running definition in `runningId`. -/
theorem definitions_distinct_iff (node : Node) (es : List Event) :
    (Always (step node) Distinct {} es ∧ Steps (step node) (Refuses node) {} es) ↔
      Steps (step node) NamesRunning {} es := by
  rw [steps_congr refuses_iff, and_iff_right_iff_imp]
  intro hG
  refine always_of_guard (J := fun _ => True) trivial ?_ (fun _ _ _ _ _ => trivial)
    (fun _ _ _ _ h hG he => step_distinct h hG he) hG
  intro id id' r r' hr
  cases (Std.ExtTreeMap.getElem?_empty).symm.trans hr

def oneDefinition : SimulationDB := SimulationDB.put {} { id := "d" }

def startTwice : List Event :=
  [.definitions oneDefinition,
   .request { simId := "d", parameters := [("operation", "start")], uuid := "a" },
   .request { simId := "d", parameters := [("operation", "start")], uuid := "b" }]

/-- Two starts without a `runningId` parameter leave two simulations of one definition. -/
theorem definition_started_twice :
    ¬ ∀ es, Always (step {}) Distinct {} es ∧ Steps (step {}) (Refuses {}) {} es := by
  intro h
  have hdistinct := (h startTwice).1.here rfl
  exact absurd (hdistinct "a" "b" _ _ rfl rfl rfl) (by decide)

end Owls.Operation
