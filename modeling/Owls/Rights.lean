import Owls.Endings
import Owls.Operation

/-!
# Who may end a simulation

On a master, a simulation leaves `Simulations_` when its time is up, or by a call of its owner or
of a root user. Every other call is refused, and changes nothing.
-/

open Machine

namespace Owls.Rights

open SimulationCoordinator Coordination
open Operation (masterNode)

/-! ## The coordinator of a master -/

variable (node : Node)

def masterStep (s : System) : Event → Option System
  -- `DoPost` calls it on a secondary.
  | .startSimJoining .. => none
  | .startSim uuid simId uinfo found now =>
    -- `MicroServiceCreateUUID` gives an id that is not in use.
    if uuid ∈ s.state.simulations then none
    else Coordination.step (masterNode node) s (.startSim uuid simId uinfo found now)
  | e => Coordination.step (masterNode node) s e

/-- How a simulation may end. -/
inductive EndedBy (s : System) (id : String) (r : SimulationRecord) : Event → Prop where
  | expired {now later : UInt64} {written : Bool} (hw : s.worker = .ready now)
      (hexp : expired s.state now id r = true) : EndedBy s id r (.sweep later written)
  | stopped {uinfo : UserInfo} {now : UInt64} {written : Bool} {answered : MicroServiceMeta → Bool}
      (h : uinfo.userRole = .root ∨ uinfo.email = r.uinfo.email) :
    EndedBy s id r (.stopSim id uinfo now written answered)
  | cancelled {uinfo : UserInfo} {parses : String → Bool} {answered : MicroServiceMeta → Bool}
      (h : uinfo.userRole = .root ∨ uinfo.email = r.uinfo.email) :
    EndedBy s id r (.cancelSim id uinfo parses answered)

/-- No simulation of that id is one that the caller may end. -/
def Foreign (s : State) (id : String) (uinfo : UserInfo) : Prop :=
  ∀ r, s.simulations[id]? = some r → ¬ (uinfo.userRole = .root ∨ uinfo.email = r.uinfo.email)

/-- The error of a refused call. -/
def refusal (s : State) (id : String) : Errors.Msg :=
  if id ∈ s.simulations then Errors.accessDenied else Errors.simulationDoesNotExist

variable {node} {s u : System} {e : Event} {id : String} {r : SimulationRecord} {uinfo : UserInfo}

theorem mayEnd_iff :
    mayEnd uinfo r = true ↔ uinfo.userRole = .root ∨ uinfo.email = r.uinfo.email := by
  simp [mayEnd]

/-! ## Calls that are refused -/

theorem refusal_of_none {t : State} (h : t.simulations[id]? = none) :
    refusal t id = Errors.simulationDoesNotExist := by
  refine if_neg fun hmem => ?_
  rw [← Std.ExtTreeMap.isSome_getElem?_iff_mem, h] at hmem
  cases hmem

theorem refusal_of_some {t : State} (h : t.simulations[id]? = some r) :
    refusal t id = Errors.accessDenied :=
  if_pos (Std.ExtTreeMap.isSome_getElem?_iff_mem.mp (Option.isSome_of_eq_some h))

theorem stopSim_foreign {t : State} (h : Foreign t id uinfo) (now : UInt64) (written : Bool)
    (answered : MicroServiceMeta → Bool) :
    stopSim node t id uinfo now written answered = .error (refusal t id) := by
  unfold stopSim
  split
  · rename_i hnone
    rw [refusal_of_none hnone]
  · rename_i r hr
    rw [if_neg fun hmay => h r hr (mayEnd_iff.mp hmay), refusal_of_some hr]

theorem cancelSim_foreign {t : State} (h : Foreign t id uinfo) (parses : String → Bool)
    (answered : MicroServiceMeta → Bool) :
    cancelSim node t id uinfo parses answered = .error (refusal t id) := by
  unfold cancelSim
  split
  · rename_i hnone
    rw [refusal_of_none hnone]
  · rename_i r hr
    rw [if_neg fun hmay => h r hr (mayEnd_iff.mp hmay), refusal_of_some hr]

/-! ## Simulations that end -/

theorem step_of_masterStep (hu : masterStep node s e = some u) :
    Coordination.step (masterNode node) s e = some u := by
  cases e with
  | startSimJoining => cases hu
  | startSim uuid simId uinfo found now =>
    simp only [masterStep] at hu
    split at hu
    · cases hu
    · exact hu
  | stopSim | cancelSim | look | replace | readClock | sweep | stats | definitions => exact hu

theorem start_adds {uuid simId : String} {found : Bool} {now : UInt64}
    (hu : masterStep node s (.startSim uuid simId uinfo found now) = some u) :
    u = s ∨ uuid ∉ s.state.simulations ∧ ∃ a : RunnerArguments, a.runningId = uuid ∧
      a.uinfo = uinfo ∧ u = { s with state := addSimulation (masterNode node) s.state a now } := by
  simp only [masterStep] at hu
  split at hu
  · cases hu
  · rename_i hnew
    cases hu
    unfold startSim
    rcases startRunner_settles simId found now _ with ⟨-, hsame⟩ | ⟨-, details, -, hadd⟩
    · exact .inl (by rw [hsame])
    · exact .inr ⟨hnew, _, rfl, rfl, by rw [hadd]⟩

theorem erased_of_gone {t t' : State} {id' : String} (hr : t.simulations[id]? = some r)
    (hgone : t'.simulations[id]? ≠ some r)
    (herase : ∀ id'', t'.simulations[id'']? = if id' = id'' then none else t.simulations[id'']?) :
    id' = id := by
  by_contra hne
  rw [herase, if_neg hne] at hgone
  exact hgone hr

theorem stopped_by_right {now : UInt64} {written : Bool} {answered : MicroServiceMeta → Bool}
    {id' : String}
    (hu : Coordination.step node s (.stopSim id' uinfo now written answered) = some u)
    (hr : s.state.simulations[id]? = some r) (hgone : u.state.simulations[id]? ≠ some r) :
    EndedBy s id r (.stopSim id' uinfo now written answered) := by
  have hstepped := stepped_of_step hu
  by_cases hforeign : Foreign s.state id' uinfo
  · cases hu
    rw [stopSim_foreign hforeign] at hgone
    exact absurd hr hgone
  · cases hstepped with
    | started he => cases he
    | refused => exact absurd hr hgone
    | stopped hr' =>
      obtain rfl := erased_of_gone hr hgone fun id'' => by
        rw [stopped_simulations]
        exact erase_simulations s.state id' id''
      cases hr'.symm.trans hr
      refine .stopped ?_
      by_contra hnot
      refine hforeign fun r' hr'' => ?_
      cases hr''.symm.trans hr
      exact hnot

theorem cancelled_by_right {parses : String → Bool} {answered : MicroServiceMeta → Bool}
    {id' : String} (hu : Coordination.step node s (.cancelSim id' uinfo parses answered) = some u)
    (hr : s.state.simulations[id]? = some r) (hgone : u.state.simulations[id]? ≠ some r) :
    EndedBy s id r (.cancelSim id' uinfo parses answered) := by
  cases stepped_of_step hu with
  | started he => cases he
  | refused => exact absurd hr hgone
  | cancelled hr' hmay =>
    obtain rfl := erased_of_gone hr hgone fun id'' => erase_simulations s.state id' id''
    cases hr'.symm.trans hr
    exact .cancelled (mayEnd_iff.mp hmay)

theorem ended_by_right (hu : masterStep node s e = some u)
    (hr : s.state.simulations[id]? = some r) (hgone : u.state.simulations[id]? ≠ some r) :
    EndedBy s id r e := by
  have hstep := step_of_masterStep hu
  cases e with
  | startSimJoining => cases hu
  | startSim uuid simId uinfo found now =>
    rcases start_adds hu with rfl | ⟨hnew, a, rfl, -, rfl⟩
    · exact absurd hr hgone
    · have hne : a.runningId ≠ id := by
        rintro rfl
        exact hnew (Std.ExtTreeMap.isSome_getElem?_iff_mem.mp (Option.isSome_of_eq_some hr))
      simp [addSimulation, Std.ExtTreeMap.getElem?_insert, hne, hr] at hgone
  | stopSim => exact stopped_by_right hstep hr hgone
  | cancelSim => exact cancelled_by_right hstep hr hgone
  | sweep later written =>
    cases stepped_of_step hstep with
    | started he => cases he
    | refused => exact absurd hr hgone
    | @sweep now _ _ hw =>
      have hswept := (swept_sweep (masterNode node) s.state now later written).simulations id
      split at hswept
      · rename_i hmem
        obtain ⟨p, hp, rfl⟩ := List.mem_map.mp hmem
        obtain ⟨hp, hexp⟩ := mem_endedBy.mp hp
        cases hp.symm.trans hr
        exact .expired hw hexp
      · exact absurd (hswept.trans hr) hgone
  | look | replace | readClock | stats | definitions =>
    cases stepped_of_step hstep <;> first | exact absurd hr hgone | (rename_i he _; cases he)

/-! ## Runs -/

theorem started_by {es : List Event} (hs : run (masterStep node) {} es = some s)
    (hr : s.state.simulations[id]? = some r) :
    ∃ simId found now, Event.startSim id simId r.uinfo found now ∈ es := by
  induction es using List.reverseRecOn generalizing s with
  | nil =>
    cases hs
    cases hr.symm.trans Std.ExtTreeMap.getElem?_empty
  | append_singleton es e ih =>
    obtain ⟨t, ht, hu⟩ := run_snoc_inv hs
    have hold (hr' : t.state.simulations[id]? = some r) :
        ∃ simId found now, Event.startSim id simId r.uinfo found now ∈ es ++ [e] := by
      obtain ⟨simId, found, now, hmem⟩ := ih ht hr'
      exact ⟨simId, found, now, List.mem_append_left _ hmem⟩
    cases e with
    | startSimJoining => cases hu
    | startSim uuid simId uinfo found now =>
      rcases start_adds hu with rfl | ⟨-, a, rfl, rfl, rfl⟩
      · exact hold hr
      · by_cases hid : a.runningId = id
        · subst hid
          simp only [addSimulation, Std.ExtTreeMap.getElem?_insert_self, Option.some.injEq] at hr
          subst hr
          exact ⟨simId, found, now, by simp [SimulationRecord.new]⟩
        · exact hold (by simpa [addSimulation, Std.ExtTreeMap.getElem?_insert, hid] using hr)
    | stopSim | cancelSim | look | replace | readClock | sweep | stats | definitions =>
      exact hold (shrinks_of_step rfl (step_of_masterStep hu) id r hr)

/-- A simulation leaves a master when it is due, or by its user or a root user. All other calls
fail, and the coordinator, its statistics and its results are what they were. -/
theorem ends_by_right (node : Node) {es : List Event} {s : System}
    (hs : run (masterStep node) {} es = some s) :
    (∀ id r, s.state.simulations[id]? = some r →
      (∃ simId found now, Event.startSim id simId r.uinfo found now ∈ es) ∧
      ∀ e u, masterStep node s e = some u → u.state.simulations[id]? ≠ some r →
        EndedBy s id r e) ∧
    ∀ id uinfo, Foreign s.state id uinfo →
      (∀ now written answered,
        stopSim (masterNode node) s.state id uinfo now written answered =
          .error (refusal s.state id) ∧
        masterStep node s (.stopSim id uinfo now written answered) = some s) ∧
      ∀ parses answered,
        cancelSim (masterNode node) s.state id uinfo parses answered =
          .error (refusal s.state id) ∧
        masterStep node s (.cancelSim id uinfo parses answered) = some s := by
  refine ⟨fun id r hr => ⟨started_by hs hr, fun e u hu => ended_by_right hu hr⟩,
    fun id uinfo hforeign => ⟨fun now written answered => ?_, fun parses answered => ?_⟩⟩
  · have hstop : stopSim (masterNode node) s.state id uinfo now written answered = _ :=
      stopSim_foreign hforeign now written answered
    exact ⟨hstop, by simp only [masterStep, Coordination.step, hstop]; rfl⟩
  · have hcancel : cancelSim (masterNode node) s.state id uinfo parses answered = _ :=
      cancelSim_foreign hforeign parses answered
    exact ⟨hcancel, by simp only [masterStep, Coordination.step, hcancel]; rfl⟩

def startOne : List Event :=
  [.definitions (SimulationDB.empty.put { id := "d" }), .startSim "a" "d" { email := "o" } true 3]

theorem foreign_startOne {t : State} {r : SimulationRecord} (h : t.simulations["a"]? = some r)
    (howner : r.uinfo.email = "o") : Foreign t "a" { email := "p" } := by
  intro r' hr'
  cases hr'.symm.trans h
  simp [howner]

theorem ends_by_right_startOne : ∃ s, run (masterStep {}) {} startOne = some s ∧
    (∃ simId found now, Event.startSim "a" simId { email := "o" } found now ∈ startOne) ∧
    masterStep {} s (.cancelSim "a" { email := "p" } (fun _ => true) fun _ => true) = some s := by
  obtain ⟨hown, hforeign⟩ := @ends_by_right {} startOne _ rfl
  exact ⟨_, rfl, (hown "a" _ rfl).1,
    ((hforeign "a" _ (foreign_startOne rfl rfl)).2 (fun _ => true) fun _ => true).2⟩

end Owls.Rights
