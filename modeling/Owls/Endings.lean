import Owls.Coordination

/-!
# How simulations end

What a stop, a cancellation and a sweep leave of the simulations, of their statistics and of
the results.
-/

namespace Owls.Coordination

open SimulationCoordinator

variable {node : Node} {s : State} {id id' : String} {r : SimulationRecord} {now later : UInt64}
  {written : Bool}

/-! ## One simulation -/

theorem erase_apply (master : Bool) (ss : SimStats.Statuses) {c : SimStats.Call} (hc : c.id = id)
    (id' : String) :
    (SimStats.removeSim (SimStats.apply master ss c) id)[id']? =
      if id = id' then none else ss[id']? := by
  simp only [SimStats.removeSim, Std.ExtTreeMap.getElem?_erase, Std.compare_eq_iff_eq]
  split
  · rfl
  · rename_i hne
    exact SimStats.getElem?_apply_of_ne (hc ▸ hne)

theorem erase_simulations (t : State) (id id' : String) :
    (t.simulations.erase id)[id']? = if id = id' then none else t.simulations[id']? := by
  simp only [Std.ExtTreeMap.getElem?_erase, Std.compare_eq_iff_eq]

theorem stopped_statuses (hid : r.runner.runningId = id) :
    (stopped node s id r now written).statuses[id']? =
      if id = id' then none else s.statuses[id']? := by
  refine Eq.trans ?_ (erase_apply node.master s.statuses (c := .endSim now id) rfl id')
  subst hid
  simp only [stopped, eraseSimulation, recordResult]
  split <;> rfl

theorem cancelled_statuses (hid : r.runner.runningId = id) :
    (cancelled s id r).statuses[id']? = if id = id' then none else s.statuses[id']? := by
  subst hid
  exact erase_apply true s.statuses (c := .setState _ "none") rfl id'

/-- The row of a simulation that ends. -/
def resultOf (node : Node) (s : State) (later : UInt64) (id : String) (uinfo : UserInfo) :
    SimulationStatus :=
  SimStats.getCurrent node.master (SimStats.endSim later s.statuses id) id {} uinfo

theorem resultOf_congr {t : State} (h : s.statuses[id]? = t.statuses[id]?) (uinfo : UserInfo) :
    resultOf node s later id uinfo = resultOf node t later id uinfo := by
  refine SimStats.getCurrent_congr ?_ {} uinfo
  have hself : ∀ t : State, (SimStats.endSim later t.statuses id)[id]? =
      (SimStats.Call.endSim later id).onSlots node.master t.statuses[id]? :=
    fun t => SimStats.getElem?_apply_self (.endSim later id)
  rw [hself, hself, h]

theorem stopped_resultsDB (hid : r.runner.runningId = id) :
    (stopped node s id r now written).resultsDB =
      if node.master then s.resultsDB.createRecord (resultOf node s now id r.uinfo) written
      else s.resultsDB := by
  rw [← hid]
  simp only [stopped, eraseSimulation, recordResult]
  split <;> rfl

/-! ## A sweep -/

def expiredIn (s : State) (now : UInt64) (l : List (String × SimulationRecord)) :
    List (String × SimulationRecord) :=
  l.filter fun p => expired s now p.1 p.2

def writeResults (node : Node) (s : State) (later : UInt64) (written : Bool)
    (l : List (String × SimulationRecord)) (db : SimulationResultsDB) : SimulationResultsDB :=
  if node.master then
    l.foldl (fun db p => db.createRecord (resultOf node s later p.1 p.2.uinfo) written) db
  else db

theorem expiredIn_congr {t : State} {l : List (String × SimulationRecord)}
    (h : ∀ p ∈ l, s.statuses[p.1]? = t.statuses[p.1]?) : expiredIn s now l = expiredIn t now l := by
  apply List.filter_congr
  intro p hp
  simp only [expired, SimStats.getStartTime_congr (h p hp)]

theorem writeResults_congr {t : State} {l : List (String × SimulationRecord)}
    (h : ∀ p ∈ l, s.statuses[p.1]? = t.statuses[p.1]?) (db : SimulationResultsDB) :
    writeResults node s later written l db = writeResults node t later written l db := by
  unfold writeResults
  split
  · apply List.foldl_ext
    intro db p hp
    rw [resultOf_congr (h p hp)]
  · rfl

theorem writeResults_new (hmaster : node.master = true) {l : List (String × SimulationRecord)}
    (hl : l.Pairwise fun p q => p.1 ≠ q.1)
    (hid : ∀ p ∈ l, (resultOf node s later p.1 p.2.uinfo).id = p.1) {db : SimulationResultsDB}
    (hnew : ∀ p ∈ l, p.1 ∉ db.map (·.id)) :
    writeResults node s later true l db =
      db ++ l.map fun p => (resultOf node s later p.1 p.2.uinfo).row := by
  simp only [writeResults, hmaster, if_true]
  induction l generalizing db with
  | nil => exact (List.append_nil db).symm
  | cons p l ih =>
    obtain ⟨hp, hl⟩ := List.pairwise_cons.mp hl
    obtain ⟨hpid, hid⟩ := List.forall_mem_cons.mp hid
    obtain ⟨hpnew, hnew⟩ := List.forall_mem_cons.mp hnew
    have hfree : db.all (·.id != (resultOf node s later p.1 p.2.uinfo).id) = true := by
      rw [hpid, List.all_eq_true]
      intro rec hrec
      rw [bne_iff_ne]
      exact fun heq => hpnew (heq ▸ List.mem_map_of_mem hrec)
    have hinsert : db.createRecord (resultOf node s later p.1 p.2.uinfo) true =
        db ++ [(resultOf node s later p.1 p.2.uinfo).row] := by
      rw [SimulationResultsDB.createRecord, hfree]
      rfl
    rw [List.foldl_cons, hinsert, ih hl hid, List.append_assoc, List.map_cons]
    · rfl
    · intro q hq hmem
      rw [List.map_append, List.mem_append] at hmem
      rcases hmem with hmem | hmem
      · exact hnew q hq hmem
      · exact hp q hq ((List.mem_singleton.mp hmem).trans hpid).symm

/-- The simulations in `ended` go, and each of them is recorded as `s` has it. -/
structure Swept (node : Node) (later : UInt64) (written : Bool)
    (ended : List (String × SimulationRecord)) (s u : State) : Prop where
  simulations : ∀ id,
    u.simulations[id]? = if id ∈ ended.map (·.1) then none else s.simulations[id]?
  statuses : ∀ id, u.statuses[id]? = if id ∈ ended.map (·.1) then none else s.statuses[id]?
  resultsDB : u.resultsDB = writeResults node s later written ended s.resultsDB

theorem swept_sweepOne (node : Node) (later : UInt64) (written : Bool)
    {p : String × SimulationRecord} (hexp : expired s now p.1 p.2 = true) :
    Swept node later written [p] s (sweepOne node now later written s p) := by
  constructor
  · intro id
    simp only [List.map_cons, List.map_nil, List.mem_singleton, eq_comm (a := id)]
    refine Eq.trans ?_ (erase_simulations s p.1 id)
    simp only [sweepOne, hexp, if_true]
    split <;> rfl
  · intro id
    simp only [List.map_cons, List.map_nil, List.mem_singleton, eq_comm (a := id)]
    refine Eq.trans ?_ (erase_apply node.master s.statuses (c := .endSim later p.1) rfl id)
    simp only [sweepOne, hexp, if_true]
    split <;> rfl
  · simp only [sweepOne, hexp, if_true, writeResults, List.foldl_cons, List.foldl_nil]
    split <;> rfl

theorem swept_stopped (node : Node) (s : State) (now : UInt64) (written : Bool)
    (hid : r.runner.runningId = id) :
    Swept node now written [(id, r)] s (stopped node s id r now written) := by
  constructor
  · intro id'
    simp only [List.map_cons, List.map_nil, List.mem_singleton, eq_comm (a := id')]
    rw [stopped_simulations]
    exact erase_simulations s id id'
  · intro id'
    simp only [List.map_cons, List.map_nil, List.mem_singleton, eq_comm (a := id')]
    exact stopped_statuses hid
  · exact stopped_resultsDB hid

theorem Swept.cons {t u : State} {p : String × SimulationRecord}
    {ended : List (String × SimulationRecord)} (hp : ∀ q ∈ ended, p.1 ≠ q.1)
    (h : Swept node later written [p] s t) (h' : Swept node later written ended t u) :
    Swept node later written (p :: ended) s u := by
  constructor
  · intro id
    rw [h'.simulations, h.simulations]
    simp only [List.map_cons, List.map_nil, List.mem_cons, List.not_mem_nil, or_false]
    by_cases hid : id = p.1
    · simp [hid]
    · simp only [hid, false_or, if_false]
  · intro id
    rw [h'.statuses, h.statuses]
    simp only [List.map_cons, List.map_nil, List.mem_cons, List.not_mem_nil, or_false]
    by_cases hid : id = p.1
    · simp [hid]
    · simp only [hid, false_or, if_false]
  · -- The rows of the others are what they were: their statistics are not touched.
    have hothers : ∀ q ∈ ended, t.statuses[q.1]? = s.statuses[q.1]? := fun q hq => by
      rw [h.statuses, if_neg (by simpa using (hp q hq).symm)]
    rw [h'.resultsDB, h.resultsDB, writeResults_congr hothers]
    unfold writeResults
    split <;> rfl

theorem swept_of_distinct (node : Node) (now later : UInt64) (written : Bool)
    (l : List (String × SimulationRecord)) (s : State) (hl : l.Pairwise fun p q => p.1 ≠ q.1) :
    Swept node later written (expiredIn s now l) s
      (l.foldl (sweepOne node now later written) s) := by
  induction l generalizing s with
  | nil =>
    refine ⟨?_, ?_, ?_⟩
    · simp [expiredIn]
    · simp [expiredIn]
    · simp [expiredIn, writeResults]
  | cons p l ih =>
    obtain ⟨hp, hl⟩ := List.pairwise_cons.mp hl
    rw [List.foldl_cons]
    by_cases hexp : expired s now p.1 p.2 = true
    · have hone := swept_sweepOne node later written hexp
      have hrest : expiredIn (sweepOne node now later written s p) now l = expiredIn s now l := by
        apply expiredIn_congr
        intro q hq
        rw [hone.statuses, if_neg (by simpa using (hp q hq).symm)]
      have hfilter : expiredIn s now (p :: l) = p :: expiredIn s now l := by
        simp [expiredIn, hexp]
      rw [hfilter, ← hrest]
      exact hone.cons (fun q hq => hp q (List.mem_filter.mp hq).1) (ih _ hl)
    · have hone : sweepOne node now later written s p = s := by
        unfold sweepOne
        simp [hexp]
      have hfilter : expiredIn s now (p :: l) = expiredIn s now l := by
        simp [expiredIn, hexp]
      rw [hone, hfilter]
      exact ih s hl

/-- The simulations that a sweep ends. -/
def endedBy (s : State) (now : UInt64) : List (String × SimulationRecord) :=
  expiredIn s now s.simulations.toList

theorem mem_endedBy {p : String × SimulationRecord} :
    p ∈ endedBy s now ↔ s.simulations[p.1]? = some p.2 ∧ expired s now p.1 p.2 = true := by
  rw [endedBy, expiredIn, List.mem_filter, Std.ExtTreeMap.mem_toList_iff_getElem?_eq_some]

theorem toList_distinct (m : Std.ExtTreeMap String SimulationRecord) :
    m.toList.Pairwise fun p q => p.1 ≠ q.1 := by
  refine m.distinct_keys_toList.imp fun {p q} h heq => h ?_
  rw [heq]
  exact Std.ReflCmp.compare_self

theorem endedBy_distinct : (endedBy s now).Pairwise fun p q => p.1 ≠ q.1 :=
  (toList_distinct s.simulations).filter _

theorem swept_sweep (node : Node) (s : State) (now later : UInt64) (written : Bool) :
    Swept node later written (endedBy s now) s
      (SimulationCoordinator.sweep node s now later written) := by
  have hswept := swept_of_distinct node now later written _ s (toList_distinct s.simulations)
  unfold SimulationCoordinator.sweep
  simp only
  split
  · exact ⟨hswept.simulations, hswept.statuses, hswept.resultsDB⟩
  · exact hswept

end Owls.Coordination
