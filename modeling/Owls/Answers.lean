import Owls.Operation

/-!
# What an operation answers

`DoPost` reads its answer from `SimStats` after the coordinator is done, and a stop or a
cancel has removed the entry by then.
-/

open Machine

namespace Owls.Answers

open SimulationCoordinator
open Operation (Request Reply handleRequest doPost)

/-! ## Runs of a node -/

inductive Event where
  | request (r : Request)
  | refresh (found : MicroServiceMetaVec)
  | sweep (now later : UInt64) (written : Bool)
  | definitions (db : SimulationDB)
  /-- Connections and the reports of other nodes write to the statistics. -/
  | statistics (ss : SimStats.Statuses)

variable (node : Node)

def step (s : State) : Event → Option State
  | .request r =>
    match handleRequest node s r with
    | some (_, s') => some s'
    | none => some s
  | .refresh found => some (refreshServices node s found)
  | .sweep now later written => some (SimulationCoordinator.sweep node s now later written)
  | .definitions db => some { s with simulationDB := db }
  | .statistics ss => some { s with statuses := ss }

/-! ## The simulation operated on -/

def IsStart (r : Request) : Prop := hasParameter r.parameters "operation" = some "start"

instance (r : Request) : Decidable (IsStart r) := decEq (hasParameter r.parameters "operation") _

/-- The running id of the request: created by a start on the master, given by the others. -/
def runningId (r : Request) : String :=
  if IsStart r then
    if node.master then r.uuid else getParameter r.parameters "joinRunningId" ""
  else (hasParameter r.parameters "runningId").getD ""

/-- A start leaves its simulation in the map, the other operations find theirs there. -/
def operatedOn (s u : State) (r : Request) : Option SimulationRecord :=
  (if IsStart r then u else s).simulations[runningId node r]?

/-- A successful answer is the status of the simulation operated on. -/
def ShowsOperated (s : State) : Event → Prop
  | .request r => ∀ status u, handleRequest node s r = some (.status status, u) →
    ∃ record, operatedOn node s u r = some record ∧
      status.id = runningId node r ∧ status.simulationId = record.details.id
  | _ => True

def Visible (uinfo : UserInfo) (s : SimulationStatus) : Prop :=
  uinfo.userRole = .root ∨ uinfo.email = s.owner

/-- The statistics have no slots for the running id, or the first one is of the same
simulation and the user may see it. -/
def SlotAgrees (ss : SimStats.Statuses) (id simId : String) (uinfo : UserInfo) : Prop :=
  ∀ v : SimStats.Slots, ss[id]? = some v →
    v.first.id = id ∧ v.first.simulationId = simId ∧ Visible uinfo v.first

/-- Whatever succeeds is a start, and it meets no slots of another simulation. -/
def StartsAfresh (s : State) : Event → Prop
  | .request r => (∃ status u, handleRequest node s r = some (.status status, u)) →
    IsStart r ∧ SlotAgrees s.statuses (runningId node r) r.simId r.uinfo
  | _ => True

/-! ## What a request does -/

/-- The exits of `DoPost`. -/
inductive Served (s : State) (r : Request) : Reply → State → Prop where
  | refused (e : Errors.Msg) : Served s r (.badRequest e) s
  | started (a : RunnerArguments) (hstart : IsStart r) (hsim : r.simId ≠ "")
      (hdetails : a.details.id = r.simId) (hid : a.runningId = runningId node r)
      (huser : a.uinfo = r.uinfo) :
      Served s r (.status (SimStats.getCurrent node.master (addSimulation node s a r.now).statuses
        (runningId node r) {} r.uinfo)) (addSimulation node s a r.now)
  | ended (record : SimulationRecord) (u : State) (hend : ¬ IsStart r)
      (hrecord : s.simulations[runningId node r]? = some record)
      (herased : u.simulations = s.simulations.erase (runningId node r))
      (hgone : u.statuses[record.runner.runningId]? = none) :
      Served s r (.status (SimStats.getCurrent node.master u.statuses (runningId node r) {}
        r.uinfo)) u

variable {node} {s u : State} {r : Request} {reply : Reply}

theorem served_of_start {id : String} {a : SimulationDetails → RunnerArguments}
    (h : Operation.answer node s r id (startRunner node s r.simId r.found r.now a) = (reply, u))
    (hstart : IsStart r) (hsim : r.simId ≠ "") (hid : id = runningId node r)
    (hdetails : ∀ d, (a d).details = d) (harg : ∀ d, (a d).runningId = id)
    (huser : ∀ d, (a d).uinfo = r.uinfo) : Served node s r reply u := by
  cases hres : startRunner node s r.simId r.found r.now a with
  | error e =>
    rw [hres] at h
    cases h
    exact .refused e
  | ok s' =>
    rw [hres] at h
    cases h
    obtain ⟨details, -, hdef, rfl⟩ := startRunner_ok hres
    subst hid
    exact .started (a details) hstart hsim (by rw [hdetails, hdef]) (harg details) (huser details)

theorem stopSim_ok {id : String} {uinfo : UserInfo} {now : UInt64} {written : Bool}
    {answered : MicroServiceMeta → Bool} {sent : List RemoteRequest}
    (h : stopSim node s id uinfo now written answered = .ok (u, sent)) :
    ∃ record, s.simulations[id]? = some record ∧ u.simulations = s.simulations.erase id ∧
      u.statuses[record.runner.runningId]? = none := by
  unfold stopSim at h
  split at h
  · cases h
  · rename_i record hrecord
    split at h
    · cases h
      refine ⟨record, hrecord, ?_, by simp [eraseSimulation, SimStats.removeSim]⟩
      simp only [eraseSimulation, recordResult]
      split <;> rfl
    · cases h

theorem cancelSim_ok {id : String} {uinfo : UserInfo} {parses : String → Bool}
    {answered : MicroServiceMeta → Bool} {sent : List RemoteRequest}
    (h : cancelSim node s id uinfo parses answered = .ok (u, sent)) :
    ∃ record, s.simulations[id]? = some record ∧ u.simulations = s.simulations.erase id ∧
      u.statuses[record.runner.runningId]? = none := by
  unfold cancelSim at h
  split at h
  · cases h
  · rename_i record hrecord
    split at h
    · cases h
      exact ⟨record, hrecord, rfl, by simp [eraseSimulation, SimStats.removeSim]⟩
    · cases h

theorem served_of_end {id : String} {res : Except Errors.Msg (State × List RemoteRequest)}
    (hend : ¬ IsStart r) (hid : id = runningId node r)
    (hok : ∀ v sent, res = .ok (v, sent) →
      ∃ record, s.simulations[id]? = some record ∧ v.simulations = s.simulations.erase id ∧
        v.statuses[record.runner.runningId]? = none)
    (h : Operation.answer node s r id (res.map (·.1)) = (reply, u)) :
    Served node s r reply u := by
  cases res with
  | error e =>
    cases h
    exact .refused e
  | ok p =>
    cases h
    obtain ⟨record, hrecord, herased, hgone⟩ := hok p.1 p.2 rfl
    subst hid
    exact .ended record p.1 hend hrecord herased hgone

theorem served_of_doPost {qb : QueryBlock} (h : doPost node s r qb = some (reply, u)) :
    Served node s r reply u := by
  unfold doPost at h
  simp only at h
  split at h
  · cases h
    exact .refused _
  rename_i hsim
  split at h
  · rename_i hop
    have hstart : IsStart r := hop
    split at h
    · rename_i hmaster
      split at h
      · cases h
        exact .refused _
      · exact served_of_start (Option.some.inj h) hstart hsim
          (by simp [runningId, hstart, hmaster]) (fun _ => rfl) (fun _ => rfl) (fun _ => rfl)
    · rename_i hmaster
      obtain ⟨index, -, h⟩ := Option.bind_eq_some_iff.mp h
      split at h
      · cases h
        exact .refused _
      · exact served_of_start (Option.some.inj h) hstart hsim
          (by simp [runningId, hstart, hmaster]) (fun _ => rfl) (fun _ => rfl) (fun _ => rfl)
  · rename_i id hop hid
    have hend : ¬ IsStart r := by simp [IsStart, hop]
    exact served_of_end hend (by simp [runningId, hend, hid]) (fun _ _ => stopSim_ok)
      (Option.some.inj h)
  · rename_i id hop hid
    have hend : ¬ IsStart r := by simp [IsStart, hop]
    exact served_of_end hend (by simp [runningId, hend, hid]) (fun _ _ => cancelSim_ok)
      (Option.some.inj h)
  · cases h
    exact .refused _

theorem served (h : handleRequest node s r = some (reply, u)) : Served node s r reply u := by
  obtain ⟨qb, -, h⟩ := Option.bind_eq_some_iff.mp h
  exact served_of_doPost h

/-! ## What the statistics show -/

variable {ss : SimStats.Statuses} {id simId : String} {uinfo : UserInfo} {v : SimStats.Slots}

theorem getCurrent_visible (master : Bool) (hv : ss[id]? = some v) (h : Visible uinfo v.first) :
    (SimStats.getCurrent master ss id {} uinfo).id = v.first.id ∧
      (SimStats.getCurrent master ss id {} uinfo).simulationId = v.first.simulationId := by
  unfold Visible at h
  simp only [SimStats.getCurrent, hv, if_pos h]
  split <;> exact ⟨rfl, rfl⟩

theorem getCurrent_hidden (master : Bool) (hv : ss[id]? = some v)
    (h : ¬ Visible uinfo v.first) : SimStats.getCurrent master ss id {} uinfo = {} := by
  unfold Visible at h
  simp only [SimStats.getCurrent, hv, if_neg h]

theorem getCurrent_shows_iff (master : Bool) (hsim : simId ≠ "") (hv : ss[id]? = some v) :
    (SimStats.getCurrent master ss id {} uinfo).id = id ∧
      (SimStats.getCurrent master ss id {} uinfo).simulationId = simId ↔
      v.first.id = id ∧ v.first.simulationId = simId ∧ Visible uinfo v.first := by
  by_cases h : Visible uinfo v.first
  · obtain ⟨hid, hsimId⟩ := getCurrent_visible master hv h
    rw [hid, hsimId]
    tauto
  · rw [getCurrent_hidden master hv h]
    have hne : ("" : String) ≠ simId := hsim.symm
    tauto

theorem getElem?_startSim_of_none (master : Bool) (now : UInt64) (services : MicroServiceMetaVec)
    (details : SimulationDetails) (hold : ss[id]? = none) :
    ∃ w, (SimStats.startSim master now services ss id details uinfo)[id]? = some w ∧
      w.first.id = id ∧ w.first.simulationId = details.id ∧ w.first.owner = uinfo.email := by
  simp only [SimStats.startSim, hold, Std.ExtTreeMap.getElem?_insert_self]
  exact ⟨_, rfl, rfl, rfl, rfl⟩

theorem getElem?_startSim_of_some (master : Bool) (now : UInt64) (services : MicroServiceMetaVec)
    (details : SimulationDetails) (hold : ss[id]? = some v) :
    ∃ w, (SimStats.startSim master now services ss id details uinfo)[id]? = some w ∧
      w.first = v.first := by
  simp only [SimStats.startSim, hold, Std.ExtTreeMap.getElem?_insert_self]
  exact ⟨_, rfl, rfl⟩

theorem started_shows_iff {a : RunnerArguments} (hsim : r.simId ≠ "")
    (hdetails : a.details.id = r.simId) (huser : a.uinfo = r.uinfo) :
    (SimStats.getCurrent node.master (addSimulation node s a r.now).statuses a.runningId {}
        r.uinfo).id = a.runningId ∧
      (SimStats.getCurrent node.master (addSimulation node s a r.now).statuses a.runningId {}
        r.uinfo).simulationId = r.simId ↔
      SlotAgrees s.statuses a.runningId r.simId r.uinfo := by
  cases hold : s.statuses[a.runningId]? with
  | none =>
    obtain ⟨w, hw, hid, hsimId, howner⟩ :=
      getElem?_startSim_of_none node.master r.now s.services a.details hold
    rw [addSimulation, getCurrent_shows_iff node.master hsim hw, hid, hsimId]
    simp [SlotAgrees, hold, hdetails, Visible, howner, huser]
  | some v =>
    obtain ⟨w, hw, hfirst⟩ :=
      getElem?_startSim_of_some node.master r.now s.services a.details hold
    rw [addSimulation, getCurrent_shows_iff node.master hsim hw, hfirst]
    simp [SlotAgrees, hold]

/-! ## Records sit under their running ids -/

def Filed (s : State) : Prop :=
  ∀ (id : String) (record : SimulationRecord), s.simulations[id]? = some record →
    record.runner.runningId = id ∧ record.details.id ≠ ""

theorem Filed.of_shrinks (h : Filed s) (hu : Shrinks s u) : Filed u :=
  fun id record hr => h id record (hu id record hr)

theorem Filed.addSimulation {a : RunnerArguments} (h : Filed s) (ha : a.details.id ≠ "")
    (now : UInt64) : Filed (SimulationCoordinator.addSimulation node s a now) := by
  intro id record hr
  simp only [SimulationCoordinator.addSimulation, Std.ExtTreeMap.getElem?_insert,
    Std.compare_eq_iff_eq] at hr
  split at hr
  · rename_i hid
    cases hr
    exact ⟨hid, ha⟩
  · exact h id record hr

theorem step_filed {e : Event} (h : Filed s) (hstep : step node s e = some u) : Filed u := by
  cases e with
  | refresh found =>
    cases hstep
    refine h.of_shrinks fun id record hr => ?_
    unfold refreshServices at hr
    split at hr <;> exact hr
  | sweep now later written =>
    cases hstep
    exact h.of_shrinks (sweep_shrinks now later written)
  | definitions | statistics =>
    cases hstep
    exact h.of_shrinks .refl
  | request r =>
    simp only [step] at hstep
    split at hstep
    · rename_i reply s' heq
      cases hstep
      cases served heq with
      | refused => exact h
      | started a _ hsim hdetails => exact h.addSimulation (by rwa [hdetails]) r.now
      | ended record u _ _ herased => exact h.of_shrinks (shrinks_of_erase _ herased)
    · cases hstep
      exact h

/-! ## The answers of a run -/

theorem showsOperated_iff (h : Filed s) (e : Event) :
    ShowsOperated node s e ↔ StartsAfresh node s e := by
  cases e with
  | refresh | sweep | definitions | statistics => exact Iff.rfl
  | request r =>
    constructor
    · rintro hshows ⟨status, u, hans⟩
      obtain ⟨record, hop, hid, hsimId⟩ := hshows status u hans
      cases served hans with
      | started a hstart hsim hdetails harg huser =>
        refine ⟨hstart, ?_⟩
        have hrecord : record = .new a := by
          simpa [operatedOn, hstart, addSimulation, harg] using hop.symm
        subst hrecord
        rw [← harg] at hid hsimId ⊢
        exact (started_shows_iff hsim hdetails huser).mp ⟨hid, hsimId.trans hdetails⟩
      | ended record' u hend hrecord _ hgone =>
        -- The entry is gone, so the answer names no definition.
        have hsame : record = record' := by
          simpa [operatedOn, hend, hrecord] using hop.symm
        subst hsame
        obtain ⟨hfiled, hne⟩ := h _ record hrecord
        rw [hfiled] at hgone
        simp only [SimStats.getCurrent, hgone] at hsimId
        exact absurd hsimId.symm hne
    · intro hafresh status u hans
      obtain ⟨hstart, hslot⟩ := hafresh ⟨status, u, hans⟩
      cases served hans with
      | started a _ hsim hdetails harg huser =>
        refine ⟨.new a, by simp [operatedOn, hstart, addSimulation, harg], ?_⟩
        rw [← harg] at hslot ⊢
        obtain ⟨hid, hsimId⟩ := (started_shows_iff hsim hdetails huser).mpr hslot
        exact ⟨hid, hsimId.trans hdetails.symm⟩
      | ended _ _ hend => exact absurd hstart hend

/-- In every run of a master or of a secondary, the successful answers show the simulation
operated on in exactly the runs in which all that succeeds are starts afresh. -/
theorem answers_show_operated_iff (node : Node) (es : List Event) :
    Steps (step node) (ShowsOperated node) {} es ↔
      Steps (step node) (StartsAfresh node) {} es := by
  refine steps_congr_of (J := Filed) ?_ (fun _ _ _ h he => step_filed h he)
    (fun _ e h => showsOperated_iff h e) es
  intro id record hr
  cases (Std.ExtTreeMap.getElem?_empty).symm.trans hr

def startThenStop : List Event :=
  [.definitions Operation.oneDefinition,
   .request { simId := "d", parameters := [("operation", "start")], uuid := "a" },
   .request { simId := "d", parameters := [("operation", "stop"), ("runningId", "a")] }]

/-- The stop succeeds, and answers with the empty status. -/
theorem stop_answers_empty :
    ¬ ∀ es, Steps (step {}) (ShowsOperated {}) {} es := by
  intro h
  have hstop := h startThenStop (startThenStop.take 2) _ List.prefix_rfl _ _ rfl rfl
  obtain ⟨record, -, hid, -⟩ := hstop {} _ rfl
  exact absurd hid (by decide)

end Owls.Answers
