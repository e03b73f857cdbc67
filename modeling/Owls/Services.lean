import Owls.Coordination

/-!
# The list of services

A simulation is shared between the services of `Services_` when it starts, and is stopped by
requests to the services of `Services_` at its end. The list should stay as it is meanwhile.
-/

open Machine

namespace Owls.Coordination

open SimulationCoordinator

/-! ## The flag and the list -/

/-- While a simulation runs, the flag is off and no step replaces the list. -/
def Frozen (node : Node) (s : System) : Prop :=
  s.state.simulations ≠ ∅ →
    s.state.lookForServices = false ∧
    ∀ e u, step node s e = some u → u.state.services = s.state.services

/-- A start does not come between the look at the flag and the new list, and a cancellation is
one of the only simulation. -/
structure Careful (s : System) (e : Event) : Prop where
  start : e.Finds s.state → s.worker ≠ .looking
  cancel : ∀ id uinfo parses answered r, e = .cancelSim id uinfo parses answered →
    s.state.simulations[id]? = some r → mayEnd uinfo r = true → s.state.simulations.erase id = ∅

variable {node : Node} {s u : System} {e : Event}

theorem replace_services (hw : s.worker = .looking) (found : MicroServiceMetaVec) :
    step node s (.replace found) =
      some { state := { s.state with services := found }, worker := .looked } := by
  simp [step, hw]

theorem sweepAll_frame (now later : UInt64) (written : Bool)
    (l : List (String × SimulationRecord)) (t : State) :
    (l.foldl (sweepOne node now later written) t).services = t.services ∧
    (l.foldl (sweepOne node now later written) t).lookForServices = t.lookForServices := by
  induction l generalizing t with
  | nil => exact ⟨rfl, rfl⟩
  | cons p l ih =>
    rw [List.foldl_cons, (ih _).1, (ih _).2]
    unfold sweepOne
    simp only
    split
    · split <;> exact ⟨rfl, rfl⟩
    · exact ⟨rfl, rfl⟩

theorem services_kept (hw : s.worker ≠ .looking) (h : step node s e = some u) :
    u.state.services = s.state.services := by
  cases stepped_of_step h with
  | replace hw' => exact absurd hw' hw
  | stopped hr =>
    simp only [stopped, eraseSimulation, recordResult]
    split <;> rfl
  | sweep hw' =>
    simp only [SimulationCoordinator.sweep]
    split <;> exact (sweepAll_frame ..).1
  | started | refused | cancelled | look | readClock | stats | definitions => rfl

theorem frozen_iff :
    Frozen node s ↔
      (s.state.simulations ≠ ∅ → s.state.lookForServices = false ∧ s.worker ≠ .looking) := by
  refine forall_congr' fun _ => and_congr_right fun _ => ⟨fun h hw => ?_, fun hw e u => ?_⟩
  · have hempty := h _ _ (replace_services hw {})
    have hone := h _ _ (replace_services hw ⟨[{}], by decide⟩)
    cases hempty.trans hone.symm
  · exact services_kept hw

/-! ## Steps -/

theorem addSimulation_ne_empty (t : State) (r : RunnerArguments) (now : UInt64) :
    (addSimulation node t r now).simulations ≠ ∅ := by
  intro h
  have hnew : (addSimulation node t r now).simulations[r.runningId]? = some (.new r) :=
    Std.ExtTreeMap.getElem?_insert_self
  rw [h] at hnew
  cases hnew.symm.trans Std.ExtTreeMap.getElem?_empty

theorem ne_empty_of_shrinks {t t' : State} (h : Shrinks t t') (hne : t'.simulations ≠ ∅) :
    t.simulations ≠ ∅ := by
  intro hempty
  apply hne
  apply Std.ExtTreeMap.ext_getElem?
  intro id
  rw [Std.ExtTreeMap.getElem?_empty]
  by_contra hsome
  obtain ⟨r, hr⟩ := Option.ne_none_iff_exists'.mp hsome
  have hold := h id r hr
  rw [hempty] at hold
  cases hold.symm.trans Std.ExtTreeMap.getElem?_empty

theorem sweep_lookForServices {now later : UInt64} {written : Bool} {t : State}
    (hne : (SimulationCoordinator.sweep node t now later written).simulations ≠ ∅) :
    (SimulationCoordinator.sweep node t now later written).lookForServices = t.lookForServices := by
  unfold SimulationCoordinator.sweep at hne ⊢
  simp only at hne ⊢
  split
  · rename_i hempty
    rw [if_pos hempty] at hne
    exact absurd (Std.ExtTreeMap.isEmpty_iff.mp hempty) hne
  · exact (sweepAll_frame ..).2

theorem step_frozen (h : Frozen node s) (hG : Careful s e) (hstep : step node s e = some u) :
    Frozen node u := by
  rw [frozen_iff] at h ⊢
  intro hne
  cases stepped_of_step hstep with
  | started he hfinds => exact ⟨rfl, hG.start hfinds⟩
  | refused => exact h hne
  | stopped hr =>
    have hold := h (ne_empty_of_shrinks (shrinks_of_erase _ (stopped_simulations ..)) hne)
    exact ⟨(stopped_lookForServices ..).trans hold.1, hold.2⟩
  | cancelled hr hmay => exact absurd (hG.cancel _ _ _ _ _ rfl hr hmay) hne
  | look hw =>
    obtain ⟨hflag, -⟩ := h hne
    simp [hflag]
  | replace hw => exact absurd hw (h hne).2
  | readClock hw => exact ⟨(h hne).1, nofun⟩
  | sweep hw =>
    have hold := h (ne_empty_of_shrinks (sweep_shrinks _ _ _) hne)
    exact ⟨(sweep_lookForServices hne).trans hold.1, nofun⟩
  | stats | definitions => exact h hne

theorem careful_of_frozen (h : Frozen node u) (hstep : step node s e = some u) : Careful s e := by
  rw [frozen_iff] at h
  constructor
  · intro hfinds
    obtain ⟨r, now, rfl⟩ := step_of_finds hfinds hstep
    exact (h (addSimulation_ne_empty _ r now)).2
  · rintro id uinfo parses answered r rfl hr hmay
    by_contra hne
    cases (step_cancelSim hr hmay).symm.trans hstep
    cases (h hne).1

/-- The list of services stays as it is under every simulation in exactly the runs in which no
start falls into the worker's search and no cancellation leaves a simulation behind. -/
theorem services_frozen_iff (node : Node) (es : List Event) :
    Always (step node) (Frozen node) {} es ↔ Steps (step node) Careful {} es :=
  always_iff_steps (J := fun _ => True) trivial (fun hne => absurd rfl hne)
    (fun _ _ _ _ _ => trivial) (fun _ h => h) (fun _ _ _ _ h hG hstep => step_frozen h hG hstep)
    (fun _ _ _ _ _ hstep h => careful_of_frozen h hstep) es

def twoDefinitions : SimulationDB := (SimulationDB.empty.put { id := "c" }).put { id := "d" }

def cancelOneOfTwo : List Event :=
  [.definitions twoDefinitions, .startSim "a" "c" {} true 0, .startSim "b" "d" {} true 0,
   .cancelSim "a" {} (fun _ => true) (fun _ => true)]

/-- The cancellation of one of two simulations lets the worker replace the list of the other. -/
theorem one_cancelled_of_two : ¬ ∀ es, Always (step {}) (Frozen {}) {} es := by
  intro h
  have hfrozen := (h cancelOneOfTwo).here rfl
  refine absurd (hfrozen fun hempty => ?_).1 (by decide)
  have hb := congrArg (fun m : Std.ExtTreeMap String SimulationRecord => (m["b"]?).isSome) hempty
  cases hb

end Owls.Coordination
