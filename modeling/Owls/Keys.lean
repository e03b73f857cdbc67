import Owls.Endings
import Owls.Vectors

/-!
# The two stores

`Simulations_` and `Statuses_` are kept in step by hand: every operation that adds to one adds
to the other, and every one that removes from one removes from the other.
-/

open Machine

namespace Owls.Coordination

open SimulationCoordinator

/-- One key set, and each runner under its own running id. -/
structure Keyed (s : State) : Prop where
  keys : ∀ id : String, (s.simulations[id]?).isSome = (s.statuses[id]?).isSome
  runningId : ∀ (id : String) r, s.simulations[id]? = some r → r.runner.runningId = id

variable {node : Node} {s u : System} {e : Event}

theorem keyed_init (db : SimulationResultsDB) : Keyed { resultsDB := db } := by
  constructor
  · intro id
    rw [Std.ExtTreeMap.getElem?_empty, Std.ExtTreeMap.getElem?_empty]
    rfl
  · intro id r hr
    cases hr.symm.trans Std.ExtTreeMap.getElem?_empty

theorem Keyed.mem_iff (h : Keyed s.state) (id : String) :
    id ∈ s.state.simulations ↔ id ∈ s.state.statuses := by
  rw [← Std.ExtTreeMap.isSome_getElem?_iff_mem, ← Std.ExtTreeMap.isSome_getElem?_iff_mem,
    h.keys]

/-! ## Steps -/

theorem isSome_onSlots {c : SimStats.Call} (hc : fromDevice c = true)
    (v : Option SimStats.Slots) : (c.onSlots node.master v).isSome = v.isSome := by
  cases c with
  | connect | disconnect | addOutMsg | addInMsg | updateRemoteStatus => exact Option.isSome_map
  | startSim | removeSim | endSim | setState => cases hc

theorem isSome_stats {c : SimStats.Call} (hc : fromDevice c = true) (id : String) :
    ((SimStats.apply node.master s.state.statuses c)[id]?).isSome =
      (s.state.statuses[id]?).isSome := by
  rw [SimStats.getElem?_apply]
  split
  · exact isSome_onSlots hc _
  · rfl

theorem addSimulation_simulations (node : Node) (t : State) (r : RunnerArguments) (now : UInt64)
    (id : String) :
    (addSimulation node t r now).simulations[id]? =
      if r.runningId = id then some (.new r) else t.simulations[id]? := by
  simp only [addSimulation, Std.ExtTreeMap.getElem?_insert, Std.compare_eq_iff_eq]

theorem addSimulation_statuses (node : Node) (t : State) (r : RunnerArguments) (now : UInt64)
    (id : String) :
    (addSimulation node t r now).statuses[id]? =
      if r.runningId = id then
        some (SimStats.Slots.start node.master t.services
          (SimStats.started now r.runningId r.details r.uinfo) t.statuses[id]?)
      else t.statuses[id]? :=
  SimStats.getElem?_apply (.startSim now t.services r.runningId r.details r.uinfo)

theorem keyed_of_removed {t t' : State} (gone : String → Prop) [DecidablePred gone]
    (h : Keyed t)
    (hsim : ∀ id, t'.simulations[id]? = if gone id then none else t.simulations[id]?)
    (hstat : ∀ id, t'.statuses[id]? = if gone id then none else t.statuses[id]?) : Keyed t' := by
  constructor
  · intro id
    rw [hsim, hstat]
    split
    · rfl
    · exact h.keys id
  · intro id r hr
    rw [hsim] at hr
    split at hr
    · cases hr
    · exact h.runningId id r hr

theorem keyed_step (h : Keyed s.state) (hstep : step node s e = some u) : Keyed u.state := by
  cases stepped_of_step hstep with
  | started =>
    constructor
    · intro id
      rw [addSimulation_simulations, addSimulation_statuses]
      split
      · rfl
      · exact h.keys id
    · intro id r' hr'
      rw [addSimulation_simulations] at hr'
      split at hr'
      · rename_i hid
        cases hr'
        exact hid
      · exact h.runningId id r' hr'
  | refused => exact h
  | @stopped id uinfo now written answered r hr =>
    refine keyed_of_removed (id = ·) h (fun id' => ?_) fun id' => ?_
    · rw [stopped_simulations]
      exact erase_simulations s.state id id'
    · exact stopped_statuses (h.runningId id r hr)
  | @cancelled id uinfo parses answered r hr hmay =>
    refine keyed_of_removed (id = ·) h (fun id' => ?_) fun id' => ?_
    · exact erase_simulations s.state id id'
    · exact cancelled_statuses (h.runningId id r hr)
  | @sweep now later written hw =>
    have hswept := swept_sweep node s.state now later written
    exact keyed_of_removed (· ∈ (endedBy s.state now).map (·.1)) h hswept.simulations
      hswept.statuses
  | stats hc => exact ⟨fun id => (h.keys id).trans (isSome_stats hc id).symm, h.runningId⟩
  | look | replace | readClock | definitions => exact ⟨h.keys, h.runningId⟩

/-! ## Runs -/

theorem always_keyed (node : Node) (db : SimulationResultsDB) (es : List Event) :
    Always (step node) (fun s => Keyed s.state) { state := { resultsDB := db } } es :=
  always_of_step (I := fun s => Keyed s.state) (keyed_init db)
    (fun _ _ _ h hstep => keyed_step h hstep) es

/-- `Statuses_` as a map of vectors has the keys of `Simulations_` and no empty vector, so that
every function of `SimStats` finds the slot 0 that it reads or writes. -/
structure InBounds (node : Node) (s : State) : Prop where
  keys : ∀ id, id ∈ s.simulations ↔ id ∈ s.statuses.vectors
  nonempty : ∀ (id : String) v, s.statuses.vectors[id]? = some v → v ≠ []
  calls : ∀ c, s.statuses.vectors.apply node.master c =
    some (SimStats.apply node.master s.statuses c).vectors
  startTime : ∀ id, (s.statuses.vectors.getStartTime id).isSome
  current : ∀ id result uinfo,
    (s.statuses.vectors.getCurrent node.master id result uinfo).isSome
  all : ∀ uinfo, (s.statuses.vectors.getAllSimulations node.master uinfo).isSome

theorem stores_in_step (node : Node) (es : List Event) :
    Always (step node) (fun s => InBounds node s.state) {} es := by
  intro p hp t ht
  have hkeyed : Keyed t.state := always_keyed node [] es p hp t ht
  constructor
  · intro id
    rw [hkeyed.mem_iff, ← Std.ExtTreeMap.isSome_getElem?_iff_mem,
      ← Std.ExtTreeMap.isSome_getElem?_iff_mem, SimStats.getElem?_vectors, Option.isSome_map]
  · rintro id v hv rfl
    rw [SimStats.getElem?_vectors, Option.map_eq_some_iff] at hv
    obtain ⟨w, -, hw⟩ := hv
    cases hw
  · exact fun c => SimStats.apply_vectors c
  · exact fun id => by rw [SimStats.getStartTime_vectors]; rfl
  · exact fun id result uinfo => by rw [SimStats.getCurrent_vectors]; rfl
  · exact fun uinfo => by rw [SimStats.getAllSimulations_vectors]; rfl

end Owls.Coordination
