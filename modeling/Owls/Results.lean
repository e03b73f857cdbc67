import Owls.Keys
import Owls.Totals

/-!
# The results

A master keeps one record of every simulation that was stopped or has expired, and none of one
that was cancelled.
-/

open Machine

namespace Owls

/-- What the status keeps of the start of its simulation. -/
def SimulationStatus.origin (s : SimulationStatus) : Coordination.Start :=
  ⟨s.id, s.simulationId, s.owner, s.startTime⟩

namespace Coordination

open SimulationCoordinator

/-! ## Events -/

/-- The clock of a body that ends simulations with a record. -/
def Event.ending? : Event → Option UInt64
  | .stopSim _ _ now _ _ => some now
  | .sweep later _ => some later
  | _ => none

def Event.cancels : Event → Bool
  | .cancelSim .. => true
  | _ => false

/-- The clock of a body that starts or ends simulations. -/
def Event.clock? (e : Event) : Option UInt64 := (e.start?.map (·.now)).or e.ending?

/-- The insertions of the body succeed. -/
def Event.written : Event → Bool
  | .stopSim _ _ _ written _ | .sweep _ written => written
  | _ => true

def starts (es : List Event) : List Start := es.filterMap Event.start?

def clocks (es : List Event) : List UInt64 := es.filterMap Event.clock?

/-- A run of a database that works, a clock that does not go back, and running ids that are new. -/
structure Orderly (old : SimulationResultsDB) (es : List Event) : Prop where
  written : ∀ e ∈ es, e.written = true
  clock : (clocks es).Pairwise (· ≤ ·)
  fresh : ((starts es).map (·.runningId)).Nodup
  new : ∀ a ∈ starts es, a.runningId ∉ old.map (·.id)

def Leaves (id : String) (s u : System) : Prop :=
  (s.state.simulations[id]?).isSome ∧ u.state.simulations[id]? = none

/-- The step ends a simulation by a stop or because its time is up. -/
def Ends (id : String) (s : System) (e : Event) (u : System) : Prop :=
  e.ending?.isSome ∧ Leaves id s u

def Cancels (id : String) (s : System) (e : Event) (u : System) : Prop :=
  e.cancels = true ∧ Leaves id s u

/-- The step ends the simulation of the record, whose counts are the sums over its slots. -/
structure Records (rec : SimulationStatus) (s : System) (e : Event) (u : System) : Prop where
  ends : Ends rec.id s e u
  state : rec.state = "completed"
  endTime : e.ending? = some rec.endTime
  sums : ∃ v, s.state.statuses[rec.id]? = some v ∧
    rec.tx = v.total (·.tx) ∧ rec.rx = v.total (·.rx) ∧
    rec.msgsTx = v.total (·.msgsTx) ∧ rec.msgsRx = v.total (·.msgsRx) ∧
    rec.liveDevices = v.total (·.liveDevices) ∧ rec.errorDevices = v.total (·.errorDevices)

variable {node : Node} {s u : System} {e : Event} {es : List Event} {old : SimulationResultsDB}
  {id : String} {v : SimStats.Slots}

theorem starts_snoc : starts (es ++ [e]) = starts es ++ e.start?.toList := by
  unfold starts
  rw [List.filterMap_append]
  cases h : e.start? <;> simp [h]

theorem clocks_snoc : clocks (es ++ [e]) = clocks es ++ e.clock?.toList := by
  unfold clocks
  rw [List.filterMap_append]
  cases h : e.clock? <;> simp [h]

theorem mem_clocks {a : Start} (ha : a ∈ starts es) : a.now ∈ clocks es := by
  obtain ⟨e, he, hstart⟩ := List.mem_filterMap.mp ha
  exact List.mem_filterMap.mpr ⟨e, he, by rw [Event.clock?, hstart]; rfl⟩

theorem Orderly.init (h : Orderly old (es ++ [e])) : Orderly old es where
  written e' he' := h.written e' (List.mem_append_left _ he')
  clock := (List.pairwise_append.mp (clocks_snoc ▸ h.clock)).1
  fresh := by
    have hfresh := h.fresh
    rw [starts_snoc, List.map_append] at hfresh
    exact (List.nodup_append.mp hfresh).1
  new a ha := h.new a (by rw [starts_snoc]; exact List.mem_append_left _ ha)

theorem Orderly.le_of_start (h : Orderly old (es ++ [e])) {now : UInt64} (he : e.clock? = some now)
    {a : Start} (ha : a ∈ starts es) : a.now ≤ now := by
  have hclock := h.clock
  rw [clocks_snoc, he, List.pairwise_append] at hclock
  exact hclock.2.2 a.now (mem_clocks ha) now (List.mem_singleton_self now)

theorem Orderly.not_started (h : Orderly old (es ++ [e])) {a : Start} (he : e.start? = some a) :
    a.runningId ∉ (starts es).map (·.runningId) := by
  have hfresh := h.fresh
  rw [starts_snoc, he, List.map_append, List.nodup_append] at hfresh
  exact fun hmem => hfresh.2.2 _ hmem a.runningId (List.mem_singleton_self _) rfl

/-! ## Slots -/

theorem updated_origin (now : UInt64) :
    (v.updated node.master now).first.origin = v.first.origin := by
  unfold SimStats.Slots.updated
  split <;> rfl

theorem onSlots_origin {c : SimStats.Call} (hc : fromDevice c = true) {w : SimStats.Slots}
    (h : c.onSlots node.master (some v) = some w) : w.first.origin = v.first.origin := by
  cases c with
  | connect now id =>
    cases h
    exact updated_origin now
  | disconnect id =>
    cases h
    simp only [SimStats.Slots.modifyFirst]
    split <;> rfl
  | addOutMsg | addInMsg =>
    cases h
    rfl
  | updateRemoteStatus now simStatus index =>
    cases h
    unfold SimStats.Slots.report
    split
    · obtain ⟨k, hk⟩ := SimStats.exists_toNat_eq_succ (bne_iff_ne.mp hc)
      rw [updated_origin, hk]
      rfl
    · rfl
  | startSim | removeSim | endSim | setState => cases hc

/-! ## One step -/

/-- The slots of a simulation go back to its start, and their owner to its record. -/
def Named (id : String) (r : SimulationRecord) (s : State) (a : Start) : Prop :=
  ∃ v, s.statuses[id]? = some v ∧ v.first.origin = a ∧ a.runningId = id ∧ a.owner = r.uinfo.email

theorem Named.congr {s u : State} {r : SimulationRecord} {a : Start} (h : Named id r s a)
    (heq : u.statuses[id]? = s.statuses[id]?) : Named id r u a := by
  obtain ⟨v, hv, hname⟩ := h
  exact ⟨v, heq.trans hv, hname⟩

theorem kept_of_removed {s u : State} (gone : String → Prop) [DecidablePred gone]
    (hsim : ∀ id, u.simulations[id]? = if gone id then none else s.simulations[id]?)
    (hstat : ∀ id, u.statuses[id]? = if gone id then none else s.statuses[id]?)
    {r : SimulationRecord} (hr : u.simulations[id]? = some r) :
    s.simulations[id]? = some r ∧ ∀ a, Named id r s a → Named id r u a := by
  rw [hsim] at hr
  split at hr
  · cases hr
  · rename_i hkept
    exact ⟨hr, fun a h => h.congr ((hstat id).trans (if_neg hkept))⟩

theorem simulation_of_step (hkeyed : Keyed s.state) (hstep : step node s e = some u)
    (hfresh : ∀ a, e.start? = some a → s.state.statuses[a.runningId]? = none)
    {r : SimulationRecord} (hr : u.state.simulations[id]? = some r) :
    (s.state.simulations[id]? = some r ∧ ∀ a, Named id r s.state a → Named id r u.state a) ∨
    ∃ a, e.start? = some a ∧ Named id r u.state a := by
  cases stepped_of_step hstep with
  | @started _ r' now he hfinds =>
    rw [addSimulation_simulations] at hr
    by_cases hid : r'.runningId = id
    · subst hid
      rw [if_pos rfl] at hr
      cases hr
      have hnone : s.state.statuses[r'.runningId]? = none := hfresh _ he
      have hslots := addSimulation_statuses node s.state r' now r'.runningId
      rw [if_pos rfl, hnone] at hslots
      exact .inr ⟨_, he, _, hslots, rfl, rfl, rfl⟩
    · rw [if_neg hid] at hr
      refine .inl ⟨hr, fun a h => h.congr ?_⟩
      rw [addSimulation_statuses, if_neg hid]
  | @stopped id' uinfo now written answered r' hr' =>
    have hswept := swept_stopped node s.state now written (hkeyed.runningId id' r' hr')
    exact .inl (kept_of_removed _ hswept.simulations hswept.statuses hr)
  | @cancelled id' uinfo parses answered r' hr' hmay =>
    exact .inl (kept_of_removed (id' = ·) (erase_simulations s.state id')
      (fun _ => cancelled_statuses (hkeyed.runningId id' r' hr')) hr)
  | @sweep now later written hw =>
    have hswept := swept_sweep node s.state now later written
    exact .inl (kept_of_removed _ hswept.simulations hswept.statuses hr)
  | @stats c hc =>
    refine .inl ⟨hr, fun a h => ?_⟩
    have hsome : ((SimStats.apply node.master s.state.statuses c)[id]?).isSome = _ :=
      isSome_stats hc id
    obtain ⟨v, hv, rfl, hname⟩ := h
    rw [hv, Option.isSome_some, Option.isSome_iff_exists] at hsome
    obtain ⟨w, hw⟩ := hsome
    refine ⟨w, hw, ?_, hname⟩
    rw [SimStats.getElem?_apply, hv] at hw
    split at hw
    · exact onSlots_origin hc hw
    · rw [Option.some.inj hw]
  | refused | look | replace | readClock | definitions => exact .inl ⟨hr, fun _ h => h.congr rfl⟩

/-- The simulations that a step ends, each with the row that it leaves. -/
structure Closed (node : Node) (s : System) (e : Event) (u : System)
    (ended : List (String × SimulationRecord)) : Prop where
  distinct : ended.Pairwise fun p q => p.1 ≠ q.1
  running : ∀ p ∈ ended, s.state.simulations[p.1]? = some p.2
  ends : ∀ id, Ends id s e u ↔ id ∈ ended.map (·.1)
  resultsDB : u.state.resultsDB =
    writeResults node s.state (e.ending?.getD 0) true ended s.state.resultsDB

variable {ended : List (String × SimulationRecord)}

theorem closed_nil (hres : u.state.resultsDB = s.state.resultsDB)
    (hnot : ∀ id, ¬ Ends id s e u) : Closed node s e u [] where
  distinct := .nil
  running _ hp := absurd hp List.not_mem_nil
  ends id := iff_of_false (hnot id) List.not_mem_nil
  resultsDB := by
    rw [hres]
    unfold writeResults
    split <;> rfl

theorem closed_of_swept {later : UInt64} (he : e.ending? = some later)
    (hdist : ended.Pairwise fun p q => p.1 ≠ q.1)
    (hrun : ∀ p ∈ ended, s.state.simulations[p.1]? = some p.2)
    (hswept : Swept node later true ended s.state u.state) : Closed node s e u ended where
  distinct := hdist
  running := hrun
  ends id := by
    simp only [Ends, Leaves, he, Option.isSome_some, true_and, hswept.simulations]
    constructor
    · rintro ⟨hsome, hnone⟩
      split at hnone
      · assumption
      · rw [hnone] at hsome
        cases hsome
    · intro hmem
      obtain ⟨p, hp, rfl⟩ := List.mem_map.mp hmem
      exact ⟨by rw [hrun p hp]; rfl, if_pos hmem⟩
  resultsDB := by rw [he]; exact hswept.resultsDB

theorem not_leaves_self : ¬ Leaves id s s := by
  rintro ⟨hsome, hnone⟩
  rw [hnone] at hsome
  cases hsome

theorem ending?_of_start {a : Start} (he : e.start? = some a) : e.ending? = none := by
  cases e with
  | startSim | startSimJoining => rfl
  | stopSim | cancelSim | look | replace | readClock | sweep | stats | definitions => cases he

theorem not_ends (he : e.ending? = none) : ¬ Ends id s e u := by
  rintro ⟨hsome, -⟩
  rw [he] at hsome
  cases hsome

theorem closed_of_step (hkeyed : Keyed s.state) (hwritten : e.written = true)
    (hstep : step node s e = some u) : ∃ ended, Closed node s e u ended := by
  cases stepped_of_step hstep with
  | started he => exact ⟨[], closed_nil rfl fun _ => not_ends (ending?_of_start he)⟩
  | refused => exact ⟨[], closed_nil rfl fun _ h => not_leaves_self h.2⟩
  | @stopped id uinfo now written answered r hr =>
    obtain rfl : written = true := hwritten
    refine ⟨[(id, r)], closed_of_swept rfl (List.pairwise_singleton _ _) ?_
      (swept_stopped node s.state now true (hkeyed.runningId id r hr))⟩
    intro p hp
    rw [List.mem_singleton.mp hp]
    exact hr
  | @sweep now later written hw =>
    obtain rfl : written = true := hwritten
    exact ⟨endedBy s.state now, closed_of_swept rfl endedBy_distinct
      (fun p hp => (mem_endedBy.mp hp).1) (swept_sweep node s.state now later true)⟩
  | cancelled | look | replace | readClock | stats | definitions =>
    exact ⟨[], closed_nil rfl fun _ => not_ends rfl⟩

theorem records_row (hmaster : node.master = true) {r : SimulationRecord} {a : Start}
    {later : UInt64} (hnamed : Named id r s.state a) (he : e.ending? = some later)
    (hends : Ends id s e u) :
    (resultOf node s.state later id r.uinfo).row.origin = a ∧
    Records (resultOf node s.state later id r.uinfo).row s e u := by
  obtain ⟨v, hv, rfl, rfl, howner⟩ := hnamed
  have hslots : (SimStats.endSim later s.state.statuses v.first.origin.runningId)[
      v.first.origin.runningId]? =
      some (v.modifyFirst fun s => { s with state := "completed", endTime := later }) := by
    rw [SimStats.endSim, SimStats.getElem?_modifyFirst, if_pos rfl, hv]
    rfl
  have hrow : resultOf node s.state later v.first.origin.runningId r.uinfo =
      (v.modifyFirst fun s => { s with state := "completed", endTime := later }).summary := by
    rw [resultOf, hmaster]
    exact SimStats.getCurrent_of_allowed hslots (.inr howner.symm) {}
  rw [hrow]
  exact ⟨rfl, hends, rfl, he, v, hv, rfl, rfl, rfl, rfl, rfl, rfl⟩

/-! ## Runs -/

def init (old : SimulationResultsDB) : System where
  state := { services := .empty, simulationDB := .empty, resultsDB := old }

structure Recorded (node : Node) (old : SimulationResultsDB) (es : List Event)
    (rec : SimulationStatus) : Prop where
  records : Happens (step node) (Records rec) (init old) es
  origin : rec.origin ∈ starts es
  le : rec.startTime ≤ rec.endTime

/-- The account of a run: what is active, what has left, and the records `new` that it made. -/
structure Accounted (node : Node) (old : SimulationResultsDB) (es : List Event) (t : System)
    (new : List SimulationStatus) : Prop where
  keyed : Keyed t.state
  active : ∀ (id : String) r, t.state.simulations[id]? = some r →
    ∃ a ∈ starts es, Named id r t.state a
  left : ∀ id, Happens (step node) (fun s _ u => Leaves id s u) (init old) es →
    t.state.simulations[id]? = none ∧ id ∈ (starts es).map (·.runningId)
  once : ∀ id, Happens (step node) (Ends id) (init old) es →
    ¬ Happens (step node) (Cancels id) (init old) es
  resultsDB : t.state.resultsDB = old ++ new
  ids : (new.map (·.id)).Nodup
  ended : ∀ id, id ∈ new.map (·.id) ↔ Happens (step node) (Ends id) (init old) es
  records : ∀ rec ∈ new, Recorded node old es rec

theorem accounted_nil : Accounted node old [] (init old) [] where
  keyed := keyed_init old
  active id r hr := by cases hr.symm.trans Std.ExtTreeMap.getElem?_empty
  left id h := absurd h (not_happens_nil _ _)
  once id h := absurd h (not_happens_nil _ _)
  resultsDB := (List.append_nil old).symm
  ids := List.nodup_nil
  ended id := iff_of_false List.not_mem_nil (not_happens_nil _ _)
  records rec hrec := absurd hrec List.not_mem_nil

theorem starts_mono {a : Start} (ha : a ∈ starts es) : a ∈ starts (es ++ [e]) := by
  rw [starts_snoc]
  exact List.mem_append_left _ ha

theorem Recorded.mono {rec : SimulationStatus} (h : Recorded node old es rec) :
    Recorded node old (es ++ [e]) rec :=
  ⟨h.records.mono (List.prefix_append es [e]), starts_mono h.origin, h.le⟩

variable {new : List SimulationStatus}

theorem Accounted.not_left (h : Accounted node old es s new)
    (hsome : (s.state.simulations[id]?).isSome) :
    ¬ Happens (step node) (fun s _ u => Leaves id s u) (init old) es := by
  intro hleft
  rw [(h.left id hleft).1] at hsome
  cases hsome

theorem Accounted.started (h : Accounted node old es s new)
    (hsome : (s.state.simulations[id]?).isSome) : id ∈ (starts es).map (·.runningId) := by
  obtain ⟨r, hr⟩ := Option.isSome_iff_exists.mp hsome
  obtain ⟨a, ha, v, -, -, hid, -⟩ := h.active id r hr
  exact List.mem_map.mpr ⟨a, ha, hid⟩

theorem Accounted.fresh (h : Accounted node old es s new) (horderly : Orderly old (es ++ [e]))
    {a : Start} (he : e.start? = some a) : s.state.statuses[a.runningId]? = none := by
  by_contra hne
  have hsome : (s.state.simulations[a.runningId]?).isSome := by
    rw [h.keyed.keys]
    exact Option.isSome_iff_ne_none.mpr hne
  exact horderly.not_started he (h.started hsome)

theorem Accounted.active_snoc (h : Accounted node old es s new)
    (horderly : Orderly old (es ++ [e])) (hstep : step node s e = some u)
    {r : SimulationRecord} (hr : u.state.simulations[id]? = some r) :
    ∃ a ∈ starts (es ++ [e]), Named id r u.state a := by
  rcases simulation_of_step h.keyed hstep (fun _ => h.fresh horderly) hr with
    ⟨hold, hkept⟩ | ⟨a, he, hnamed⟩
  · obtain ⟨a, ha, hnamed⟩ := h.active id r hold
    exact ⟨a, starts_mono ha, hkept a hnamed⟩
  · refine ⟨a, ?_, hnamed⟩
    rw [starts_snoc, he]
    exact List.mem_append_right _ (List.mem_singleton_self a)

theorem Accounted.left_snoc (h : Accounted node old es s new) (horderly : Orderly old (es ++ [e]))
    (ht : run (step node) (init old) es = some s) (hstep : step node s e = some u)
    (hleft : Happens (step node) (fun s _ u => Leaves id s u) (init old) (es ++ [e])) :
    u.state.simulations[id]? = none ∧ id ∈ (starts (es ++ [e])).map (·.runningId) := by
  have hmono : id ∈ (starts es).map (·.runningId) →
      id ∈ (starts (es ++ [e])).map (·.runningId) := by
    intro hmem
    rw [starts_snoc, List.map_append]
    exact List.mem_append_left _ hmem
  rcases (happens_snoc ht hstep).mp hleft with hbefore | ⟨hsome, hnone⟩
  · obtain ⟨hnone, hstarted⟩ := h.left id hbefore
    refine ⟨?_, hmono hstarted⟩
    -- Its id is not given out again.
    cases hu : u.state.simulations[id]? with
    | none => rfl
    | some r =>
      rcases simulation_of_step h.keyed hstep (fun _ => h.fresh horderly) hu with
        ⟨hold, -⟩ | ⟨a, he, v, -, -, hid, -⟩
      · cases hnone.symm.trans hold
      · exact absurd (hid ▸ hstarted) (horderly.not_started he)
  · exact ⟨hnone, hmono (h.started hsome)⟩

theorem clock?_of_ending {later : UInt64} (he : e.ending? = some later) :
    e.clock? = some later := by
  cases e with
  | stopSim | sweep => exact he
  | startSim | startSimJoining | cancelSim | look | replace | readClock | stats | definitions =>
    cases he

theorem cancels_of_ending (he : e.ending?.isSome) : e.cancels = false := by
  cases e with
  | stopSim | sweep => rfl
  | startSim | startSimJoining | cancelSim | look | replace | readClock | stats | definitions =>
    cases he

theorem Accounted.once_snoc (h : Accounted node old es s new)
    (ht : run (step node) (init old) es = some s) (hstep : step node s e = some u)
    (hends : Happens (step node) (Ends id) (init old) (es ++ [e])) :
    ¬ Happens (step node) (Cancels id) (init old) (es ++ [e]) := by
  intro hcancels
  rcases (happens_snoc ht hstep).mp hends with hbefore | hnow
  · rcases (happens_snoc ht hstep).mp hcancels with hbefore' | hnow'
    · exact h.once id hbefore hbefore'
    · exact h.not_left hnow'.2.1 (hbefore.imp fun _ _ _ h => h.2)
  · rcases (happens_snoc ht hstep).mp hcancels with hbefore' | hnow'
    · exact h.not_left hnow.2.1 (hbefore'.imp fun _ _ _ h => h.2)
    · cases (cancels_of_ending hnow.1).symm.trans hnow'.1

/-- The rows of the simulations that a step ends, with the clock of the step. -/
def rows (node : Node) (s : System) (e : Event) (ended : List (String × SimulationRecord)) :
    List SimulationStatus :=
  ended.map fun p => (resultOf node s.state (e.ending?.getD 0) p.1 p.2.uinfo).row

theorem Accounted.row (h : Accounted node old es s new) (hmaster : node.master = true)
    (hclosed : Closed node s e u ended) {p : String × SimulationRecord} (hp : p ∈ ended) :
    ∃ a ∈ starts es, a.runningId = p.1 ∧ ∃ later, e.ending? = some later ∧
      (resultOf node s.state (e.ending?.getD 0) p.1 p.2.uinfo).row.origin = a ∧
      Records (resultOf node s.state (e.ending?.getD 0) p.1 p.2.uinfo).row s e u := by
  obtain ⟨a, ha, hnamed⟩ := h.active p.1 p.2 (hclosed.running p hp)
  have hends : Ends p.1 s e u := (hclosed.ends p.1).mpr (List.mem_map_of_mem hp)
  obtain ⟨later, hlater⟩ := Option.isSome_iff_exists.mp hends.1
  have hid : a.runningId = p.1 := hnamed.choose_spec.2.2.1
  refine ⟨a, ha, hid, later, hlater, ?_⟩
  rw [hlater]
  exact records_row hmaster hnamed hlater hends

theorem Accounted.resultsDB_snoc (h : Accounted node old es s new)
    (horderly : Orderly old (es ++ [e])) (hmaster : node.master = true)
    (hclosed : Closed node s e u ended) :
    u.state.resultsDB = old ++ (new ++ rows node s e ended) := by
  have hnew : ∀ p ∈ ended, p.1 ∉ s.state.resultsDB.map (·.id) := by
    intro p hp hmem
    obtain ⟨a, ha, hid, -⟩ := h.row hmaster hclosed hp
    rw [h.resultsDB, List.map_append, List.mem_append] at hmem
    rcases hmem with hmem | hmem
    · exact horderly.new a (starts_mono ha) (hid ▸ hmem)
    · have hsome : (s.state.simulations[p.1]?).isSome := by
        rw [hclosed.running p hp]
        rfl
      exact h.not_left hsome (((h.ended p.1).mp hmem).imp fun _ _ _ h => h.2)
  have hid : ∀ p ∈ ended, (resultOf node s.state (e.ending?.getD 0) p.1 p.2.uinfo).id = p.1 := by
    intro p hp
    obtain ⟨a, -, hid, -, -, horigin, -⟩ := h.row hmaster hclosed hp
    exact (congrArg Start.runningId horigin).trans hid
  rw [hclosed.resultsDB, writeResults_new hmaster hclosed.distinct hid hnew, h.resultsDB,
    List.append_assoc]
  rfl

theorem accounted_snoc (hmaster : node.master = true) (horderly : Orderly old (es ++ [e]))
    (h : Accounted node old es s new) (ht : run (step node) (init old) es = some s)
    (hstep : step node s e = some u) : ∃ new, Accounted node old (es ++ [e]) u new := by
  have hwritten : e.written = true :=
    horderly.written e (List.mem_append_right _ (List.mem_singleton_self e))
  obtain ⟨ended, hclosed⟩ := closed_of_step h.keyed hwritten hstep
  have hids : (rows node s e ended).map (·.id) = ended.map (·.1) := by
    rw [rows, List.map_map]
    apply List.map_congr_left
    intro p hp
    obtain ⟨a, -, hid, -, -, horigin, -⟩ := h.row hmaster hclosed hp
    exact (congrArg Start.runningId horigin).trans hid
  refine ⟨new ++ rows node s e ended, ?_⟩
  constructor
  · exact keyed_step h.keyed hstep
  · exact fun id r hr => h.active_snoc horderly hstep hr
  · exact fun id hleft => h.left_snoc horderly ht hstep hleft
  · exact fun id hends => h.once_snoc ht hstep hends
  · exact h.resultsDB_snoc horderly hmaster hclosed
  · rw [List.map_append, hids, List.nodup_append]
    refine ⟨h.ids, List.pairwise_map.mpr hclosed.distinct, ?_⟩
    rintro id hold _ hnow rfl
    exact h.not_left ((hclosed.ends id).mpr hnow).2.1
      (((h.ended id).mp hold).imp fun _ _ _ h => h.2)
  · intro id
    rw [happens_snoc ht hstep, List.map_append, hids, List.mem_append, h.ended, hclosed.ends]
  · intro rec hrec
    rcases List.mem_append.mp hrec with hrec | hrec
    · exact (h.records rec hrec).mono
    · obtain ⟨p, hp, rfl⟩ := List.mem_map.mp hrec
      obtain ⟨a, ha, -, later, hlater, horigin, hrecords⟩ := h.row hmaster hclosed hp
      have hnow : a.now ≤ later := horderly.le_of_start (clock?_of_ending hlater) ha
      refine ⟨(happens_snoc ht hstep).mpr (.inr hrecords), horigin ▸ starts_mono ha, ?_⟩
      rw [← Option.some.inj (hlater.symm.trans hrecords.endTime)]
      exact (congrArg Start.now horigin).trans_le hnow

theorem accounted_run (hmaster : node.master = true) (horderly : Orderly old es)
    (ht : run (step node) (init old) es = some s) : ∃ new, Accounted node old es s new := by
  induction es using List.reverseRecOn generalizing s with
  | nil =>
    cases ht
    exact ⟨[], accounted_nil⟩
  | append_singleton es e ih =>
    obtain ⟨t, ht', hstep⟩ := run_snoc_inv ht
    obtain ⟨new, h⟩ := ih horderly.init ht'
    exact accounted_snoc hmaster horderly h ht' hstep

/-- One record for a simulation that was stopped or has expired, none for one that was cancelled
or is active, and what each record holds. -/
structure Ledger (node : Node) (old : SimulationResultsDB) (es : List Event) (t : System)
    (new : List SimulationStatus) : Prop where
  resultsDB : t.state.resultsDB = old ++ new
  ended : ∀ id, Happens (step node) (Ends id) (init old) es → (new.map (·.id)).count id = 1
  cancelled : ∀ id, Happens (step node) (Cancels id) (init old) es → (new.map (·.id)).count id = 0
  active : ∀ id ∈ t.state.simulations, (new.map (·.id)).count id = 0
  records : ∀ rec ∈ new, Recorded node old es rec

theorem results_exact (hmaster : node.master = true) (horderly : Orderly old es)
    (ht : run (step node) (init old) es = some s) : ∃ new, Ledger node old es s new := by
  obtain ⟨new, h⟩ := accounted_run hmaster horderly ht
  refine ⟨new, h.resultsDB, ?_, ?_, ?_, h.records⟩
  · intro id hends
    exact List.count_eq_one_of_mem h.ids ((h.ended id).mpr hends)
  · intro id hcancels
    exact List.count_eq_zero.mpr fun hmem => h.once id ((h.ended id).mp hmem) hcancels
  · intro id hid
    refine List.count_eq_zero.mpr fun hmem => ?_
    exact h.not_left (Std.ExtTreeMap.isSome_getElem?_iff_mem.mpr hid)
      (((h.ended id).mp hmem).imp fun _ _ _ h => h.2)

def stopOne : List Event :=
  [.definitions (SimulationDB.empty.put { id := "c" }), .startSim "a" "c" { email := "o" } true 3,
   .stats (.connect 4 "a"), .stopSim "a" { userRole := .root } 9 true fun _ => true]

theorem stopOne_orderly : Orderly [] stopOne where
  written := by simp [stopOne, Event.written]
  clock := by decide
  fresh := by decide
  new := by simp

theorem results_exact_stopOne :
    ∃ t new, run (step {}) (init []) stopOne = some t ∧ Ledger {} [] stopOne t new := by
  obtain ⟨new, h⟩ := @results_exact {} _ stopOne [] rfl stopOne_orderly rfl
  exact ⟨_, new, rfl, h⟩

end Coordination

end Owls
