import Mathlib.Data.UInt
import Owls.Base.Machine
import Owls.Calls

/-!
# The status of a simulation

On the master `GetCurrent` adds up the slots of all nodes. Slot 0 is kept by this node, every
other one by the reports of a remote service.
-/

open Machine

namespace Owls.SimStats

/-! ## Sums -/

def Slots.total (f : SimulationStatus → UInt64) (v : Slots) : UInt64 := (v.toList.map f).sum

/-- What `GetCurrent` shows of all slots together. -/
def Slots.summary (v : Slots) : SimulationStatus :=
  { v.first with
    liveDevices := v.total (·.liveDevices), tx := v.total (·.tx), rx := v.total (·.rx),
    msgsTx := v.total (·.msgsTx), msgsRx := v.total (·.msgsRx),
    errorDevices := v.total (·.errorDevices) }

theorem foldl_field {α : Type*} (g : α → SimulationStatus → α) (f : α → UInt64)
    (h : SimulationStatus → UInt64) (hg : ∀ a b, f (g a b) = f a + h b) (a : α)
    (l : List SimulationStatus) : f (l.foldl g a) = f a + (l.map h).sum := by
  induction l generalizing a with
  | nil => exact (UInt64.add_zero _).symm
  | cons b l ih => rw [List.foldl_cons, ih, hg, List.map_cons, List.sum_cons, UInt64.add_assoc]

theorem foldl_field_zero {α : Type*} (g : α → SimulationStatus → α) (f : α → UInt64)
    (h : SimulationStatus → UInt64) (hg : ∀ a b, f (g a b) = f a + h b) {a : α} (ha : f a = 0)
    (l : List SimulationStatus) : f (l.foldl g a) = (l.map h).sum := by
  rw [foldl_field g f h hg, ha, UInt64.zero_add]

theorem live_eq_total (v : Slots) : v.live = v.total (·.liveDevices) :=
  foldl_field_zero (fun n s => n + s.liveDevices) id SimulationStatus.liveDevices
    (fun _ _ => rfl) rfl v.toList

variable {ss : Statuses} {id : String} {v : Slots} {uinfo : UserInfo}

theorem getCurrent_of_allowed (hv : ss[id]? = some v)
    (hmay : uinfo.userRole = .root ∨ uinfo.email = v.first.owner) (result : SimulationStatus) :
    getCurrent true ss id result uinfo = v.summary := by
  unfold getCurrent Slots.summary Slots.total
  simp only [hv, hmay, if_true]
  -- Each of the six sums is one field of the fold, which starts at 0.
  congr 1
  · exact foldl_field_zero _ SimulationStatus.tx _ (fun _ _ => rfl) rfl _
  · exact foldl_field_zero _ SimulationStatus.rx _ (fun _ _ => rfl) rfl _
  · exact foldl_field_zero _ SimulationStatus.msgsTx _ (fun _ _ => rfl) rfl _
  · exact foldl_field_zero _ SimulationStatus.msgsRx _ (fun _ _ => rfl) rfl _
  · exact foldl_field_zero _ SimulationStatus.liveDevices _ (fun _ _ => rfl) rfl _
  · exact foldl_field_zero _ SimulationStatus.errorDevices _ (fun _ _ => rfl) rfl _

/-! ## Slots -/

theorem rest_updated (master : Bool) (now : UInt64) : (v.updated master now).rest = v.rest := by
  unfold Slots.updated
  split <;> rfl

/-- All that `UpdateConnections` changes is the time of slot 0. -/
def Slots.forgetTime (v : Slots) : Slots := v.modifyFirst fun s => { s with timeToFullDevices := 0 }

theorem forgetTime_updated (master : Bool) (now : UInt64) :
    (v.updated master now).forgetTime = v.forgetTime := by
  unfold Slots.updated
  split <;> rfl

theorem forgetTime_set (k : Nat) (s : SimulationStatus) :
    (v.forgetTime.set k s).forgetTime = (v.set k s).forgetTime := by
  cases k <;> rfl

theorem set_of_length_le {k : Nat} (hk : v.toList.length ≤ k) (s : SimulationStatus) :
    v.set k s = v := by
  cases k with
  | zero => cases hk
  | succ k =>
    have hrest : v.rest.length ≤ k := Nat.le_of_succ_le_succ hk
    simp only [Slots.set, List.set_eq_of_length_le hrest]

theorem set_comm {i j : Nat} (hij : i ≠ j) (a b : SimulationStatus) :
    (v.set i a).set j b = (v.set j b).set i a := by
  cases i with
  | zero =>
    cases j with
    | zero => exact absurd rfl hij
    | succ j => rfl
  | succ i =>
    cases j with
    | zero => rfl
    | succ j =>
      have hne : i ≠ j := fun h => hij (congrArg (· + 1) h)
      simp only [Slots.set, List.set_comm a b hne]

theorem report_of_length_le {master : Bool} {now index : UInt64}
    (h : v.toList.length ≤ index.toNat) (s : SimulationStatus) :
    v.report master now s index = v := if_neg (Nat.not_lt.mpr h)

theorem rest_report (master : Bool) (now index : UInt64) (s : SimulationStatus) :
    (v.report master now s index).rest = (v.set index.toNat s).rest := by
  unfold Slots.report
  split
  · exact rest_updated master now
  · rename_i hge
    rw [set_of_length_le (Nat.not_lt.mp hge)]

theorem forgetTime_report (master : Bool) (now index : UInt64) (s : SimulationStatus) :
    (v.report master now s index).forgetTime = (v.set index.toNat s).forgetTime := by
  unfold Slots.report
  split
  · exact forgetTime_updated master now
  · rename_i hge
    rw [set_of_length_le (Nat.not_lt.mp hge)]

theorem exists_toNat_eq_succ {index : UInt64} (h : index ≠ 0) : ∃ k, index.toNat = k + 1 :=
  Nat.exists_eq_succ_of_ne_zero fun h0 => h (UInt64.toNat_inj.mp h0)

theorem report_of_timed {master : Bool} {now index : UInt64} {s : SimulationStatus}
    (htime : v.first.timeToFullDevices ≠ 0) (hindex : index ≠ 0) :
    v.report master now s index = v.set index.toNat s := by
  unfold Slots.report
  split
  · obtain ⟨k, hk⟩ := exists_toNat_eq_succ hindex
    rw [hk]
    exact if_neg fun h => htime h.2.1
  · rename_i hge
    rw [set_of_length_le (Nat.not_lt.mp hge)]

/-! ## History -/

/-- The report of a call for the slot `k` of a simulation. -/
def Call.reportFor (id : String) (k : Nat) : Call → Option SimulationStatus
  | .updateRemoteStatus _ simStatus index =>
    if simStatus.id = id ∧ index.toNat = k then some simStatus else none
  | _ => none

def lastReport (id : String) (k : Nat) (cs : List Call) : Option SimulationStatus :=
  (cs.filterMap (Call.reportFor id k)).getLast?

/-- The call makes or drops the slots of a simulation. -/
def Call.renews (id : String) : Call → Bool
  | .startSim _ _ id' _ _ | .removeSim id' => id' = id
  | _ => false

/-- The slots of the other nodes after a start with `s` and the calls in `cs`. -/
structure Tracked (id : String) (s : SimulationStatus) (n : Nat) (cs : List Call) (v : Slots) :
    Prop where
  length : v.rest.length = n
  slot : ∀ k < n, v.rest[k]? = some ((lastReport id (k + 1) cs).getD s)

variable {c : Call} {cs : List Call} {s : SimulationStatus} {n : Nat}

theorem lastReport_snoc (k : Nat) :
    lastReport id k (cs ++ [c]) = (c.reportFor id k).or (lastReport id k cs) := by
  unfold lastReport
  rw [List.filterMap_append, List.getLast?_append]
  cases h : c.reportFor id k <;> simp [h]

theorem reportFor_of_ne (hid : c.id ≠ id) (k : Nat) : c.reportFor id k = none := by
  cases c with
  | updateRemoteStatus now simStatus index => exact if_neg fun h => hid h.1
  | startSim | removeSim | connect | disconnect | addOutMsg | addInMsg | endSim | setState => rfl

theorem Tracked.of_rest {w : Slots} (h : Tracked id s n cs v) (hw : w.rest = v.rest) :
    Tracked id s n cs w :=
  ⟨by rw [hw, h.length], fun k hk => by rw [hw, h.slot k hk]⟩

theorem Tracked.other {w : Slots} (h : Tracked id s n cs v) (hw : w.rest = v.rest)
    (hc : ∀ k, c.reportFor id (k + 1) = none) : Tracked id s n (cs ++ [c]) w := by
  refine ⟨(h.of_rest hw).length, fun k hk => ?_⟩
  rw [lastReport_snoc, hc, Option.none_or]
  exact (h.of_rest hw).slot k hk

theorem tracked_start (n : Nat) : Tracked id s n [] ⟨s, List.replicate n s⟩ :=
  ⟨List.length_replicate, fun _ hk => List.getElem?_replicate_of_lt hk⟩

theorem Tracked.report (master : Bool) (now index : UInt64) {simStatus : SimulationStatus}
    (hid : simStatus.id = id) (h : Tracked id s n cs v) :
    Tracked id s n (cs ++ [.updateRemoteStatus now simStatus index])
      (v.report master now simStatus index) := by
  refine Tracked.of_rest ?_ (rest_report master now index simStatus)
  cases hindex : index.toNat with
  | zero =>
    -- A report for slot 0 is none for the others.
    refine h.other rfl fun k => if_neg fun hreport => ?_
    rw [hindex] at hreport
    cases hreport.2
  | succ j =>
    refine ⟨List.length_set.trans h.length, fun k hk => ?_⟩
    have hlt : k < v.rest.length := by rw [h.length]; exact hk
    rw [lastReport_snoc]
    simp only [Slots.set, Call.reportFor, hid, hindex, true_and, Nat.add_right_cancel_iff]
    by_cases hjk : j = k
    · rw [if_pos hjk, hjk, List.getElem?_set_self hlt, Option.some_or, Option.getD_some]
    · rw [if_neg hjk, List.getElem?_set_ne hjk, Option.none_or]
      exact h.slot k hk

theorem Tracked.call (master : Bool) (hid : c.id = id) (hc : c.renews id = false)
    (h : Tracked id s n cs v) {w : Slots} (hw : c.onSlots master (some v) = some w) :
    Tracked id s n (cs ++ [c]) w := by
  cases c with
  | startSim | removeSim => exact absurd hid (of_decide_eq_false hc)
  | updateRemoteStatus now simStatus index =>
    cases hw
    exact h.report master now index hid
  | connect now id' =>
    cases hw
    exact h.other (rest_updated master now) fun _ => rfl
  | disconnect | addOutMsg | addInMsg | endSim | setState =>
    cases hw
    exact h.other rfl fun _ => rfl

/-- Running ids are new: a simulation does not start twice. -/
def Fresh (ss : Statuses) (c : Call) : Prop :=
  ∀ now services id details uinfo, c = .startSim now services id details uinfo → ss[id]? = none

/-- No call made the slots anew or dropped them. -/
def Kept (id : String) (cs : List Call) : Prop := ∀ c ∈ cs, c.renews id = false

/-- The slots of every simulation come from its start and from the calls since. -/
def History (ss : Statuses) (cs : List Call) : Prop :=
  ∀ (id : String) v, ss[id]? = some v →
    ∃ before now services details uinfo after,
      cs = before ++ .startSim now services id details uinfo :: after ∧ Kept id after ∧
      Tracked id (started now id details uinfo) services.toList.length after v

theorem Kept.snoc (h : Kept id cs) (hc : c.renews id = false) : Kept id (cs ++ [c]) := by
  intro c' hc'
  rcases List.mem_append.mp hc' with hc' | hc'
  · exact h c' hc'
  · rw [List.mem_singleton.mp hc']
    exact hc

theorem id_of_renews (hc : c.renews id = true) : c.id = id := by
  cases c with
  | startSim | removeSim => exact of_decide_eq_true hc
  | connect | disconnect | addOutMsg | addInMsg | endSim | setState | updateRemoteStatus => cases hc

theorem onSlots_none {master : Bool} (hid : c.id = id) (hc : c.renews id = false) :
    c.onSlots master none = none := by
  cases c with
  | startSim | removeSim => exact absurd hid (of_decide_eq_false hc)
  | connect | disconnect | addOutMsg | addInMsg | endSim | setState | updateRemoteStatus => rfl

theorem history_call (hhist : History ss cs) (hfresh : Fresh ss c) :
    History (apply true ss c) (cs ++ [c]) := by
  intro id w hw
  rw [getElem?_apply] at hw
  by_cases hc : c.renews id = true
  · rw [if_pos (id_of_renews hc)] at hw
    cases c with
    | startSim now services id' details uinfo =>
      have hid : id' = id := of_decide_eq_true hc
      subst hid
      rw [hfresh _ _ _ _ _ rfl] at hw
      cases hw
      exact ⟨cs, now, services, details, uinfo, [], rfl, by simp [Kept], tracked_start _⟩
    | removeSim id' => cases hw
    | connect | disconnect | addOutMsg | addInMsg | endSim | setState | updateRemoteStatus =>
      cases hc
  · rw [Bool.not_eq_true] at hc
    -- The call comes after the start that the slots go back to.
    have hsnoc : ∀ v, ss[id]? = some v →
        (∀ s n cs, Tracked id s n cs v → Tracked id s n (cs ++ [c]) w) →
        ∃ before now services details uinfo after,
          cs ++ [c] = before ++ .startSim now services id details uinfo :: after ∧
          Kept id after ∧
          Tracked id (started now id details uinfo) services.toList.length after w := by
      intro v hv hstep
      obtain ⟨before, now, services, details, uinfo, after, rfl, hkept, htracked⟩ := hhist id v hv
      exact ⟨before, now, services, details, uinfo, after ++ [c],
        by rw [List.append_assoc, List.cons_append], hkept.snoc hc, hstep _ _ _ htracked⟩
    by_cases hid : c.id = id
    · rw [if_pos hid] at hw
      cases hv : ss[id]? with
      | none =>
        rw [hv, onSlots_none hid hc] at hw
        cases hw
      | some v =>
        rw [hv] at hw
        exact hsnoc v hv fun _ _ _ htracked => htracked.call true hid hc hw
    · rw [if_neg hid] at hw
      exact hsnoc w hw fun _ _ _ htracked => htracked.other rfl fun _ => reportFor_of_ne hid _

theorem history_run {cs : List Call} (hfresh : Steps (step true) Fresh ∅ cs)
    (hrun : run (step true) ∅ cs = some ss) : History ss cs := by
  induction cs using List.reverseRecOn generalizing ss with
  | nil =>
    intro id v hv
    cases hrun
    cases hv.symm.trans Std.ExtTreeMap.getElem?_empty
  | append_singleton cs c ih =>
    obtain ⟨t, ht, hc⟩ := run_snoc_inv hrun
    have hhist := ih (hfresh.of_prefix (List.prefix_append cs [c])) ht
    cases hc
    exact history_call hhist (hfresh.last ht rfl)

/-! ## Two reports -/

/-- The two states have the same slots, up to the time of slot 0. -/
def SameButTime (ss ss' : Statuses) : Prop :=
  ∀ id : String, (ss[id]?).map Slots.forgetTime = (ss'[id]?).map Slots.forgetTime

def Timed (ss : Statuses) (id : String) : Prop :=
  ∀ v, ss[id]? = some v → v.first.timeToFullDevices ≠ 0

def reports (ss : Statuses) (c c' : Call) : Statuses := apply true (apply true ss c) c'

theorem forgetTime_two (now now' i j : UInt64) (a b : SimulationStatus) :
    ((v.report true now a i).report true now' b j).forgetTime =
      ((v.set i.toNat a).set j.toNat b).forgetTime := by
  rw [forgetTime_report, ← forgetTime_set, forgetTime_report, forgetTime_set]

theorem report_comm {now now' i j : UInt64} (hij : i ≠ j) (a b : SimulationStatus) :
    ((v.report true now a i).report true now' b j).forgetTime =
      ((v.report true now' b j).report true now a i).forgetTime := by
  have hne : i.toNat ≠ j.toNat := fun h => hij (UInt64.toNat_inj.mp h)
  rw [forgetTime_two, forgetTime_two, set_comm hne]

theorem report_comm_of_timed {now now' i j : UInt64} (hij : i ≠ j) (hi : i ≠ 0) (hj : j ≠ 0)
    (htime : v.first.timeToFullDevices ≠ 0) (a b : SimulationStatus) :
    (v.report true now a i).report true now' b j =
      (v.report true now' b j).report true now a i := by
  have hne : i.toNat ≠ j.toNat := fun h => hij (UInt64.toNat_inj.mp h)
  have hkept : ∀ now (s : SimulationStatus) (k : UInt64), k ≠ 0 →
      (v.report true now s k).first.timeToFullDevices ≠ 0 := by
    intro now s k hk
    rw [report_of_timed htime hk]
    obtain ⟨n, hn⟩ := exists_toNat_eq_succ hk
    rw [hn]
    exact htime
  rw [report_of_timed (hkept _ _ _ hi) hj, report_of_timed (hkept _ _ _ hj) hi,
    report_of_timed htime hi, report_of_timed htime hj, set_comm hne]

theorem reports_comm (ss : Statuses) {i j : UInt64} (hij : i ≠ j) (now now' : UInt64)
    (a b : SimulationStatus) :
    SameButTime (reports ss (.updateRemoteStatus now a i) (.updateRemoteStatus now' b j))
      (reports ss (.updateRemoteStatus now' b j) (.updateRemoteStatus now a i)) := by
  intro id
  simp only [reports, getElem?_apply, Call.id]
  by_cases ha : a.id = id <;> by_cases hb : b.id = id <;>
    simp only [ha, hb, if_true, if_false, Call.onSlots]
  cases ss[id]? with
  | none => rfl
  | some v => exact congrArg some (report_comm hij a b)

theorem reports_comm_of_timed {i j : UInt64} (hij : i ≠ j) (hi : i ≠ 0) (hj : j ≠ 0)
    (now now' : UInt64) {a : SimulationStatus} (htime : Timed ss a.id) (b : SimulationStatus) :
    reports ss (.updateRemoteStatus now a i) (.updateRemoteStatus now' b j) =
      reports ss (.updateRemoteStatus now' b j) (.updateRemoteStatus now a i) := by
  apply Std.ExtTreeMap.ext_getElem?
  intro id
  simp only [reports, getElem?_apply, Call.id]
  by_cases ha : a.id = id <;> by_cases hb : b.id = id <;>
    simp only [ha, hb, if_true, if_false, Call.onSlots]
  cases hv : ss[id]? with
  | none => rfl
  | some v =>
    have hset := htime v (by rw [ha, hv])
    exact congrArg some (report_comm_of_timed hij hi hj hset a b)

/-! ## Every state -/

structure Exact (ss : Statuses) (cs : List Call) : Prop where
  current : ∀ (id : String) v uinfo result, ss[id]? = some v →
    uinfo.userRole = .root ∨ uinfo.email = v.first.owner →
    getCurrent true ss id result uinfo = v.summary
  slots : History ss cs
  outOfRange : ∀ now simStatus index v, ss[simStatus.id]? = some v →
    v.toList.length ≤ index.toNat → apply true ss (.updateRemoteStatus now simStatus index) = ss
  commute : ∀ now now' a b i j, i ≠ j →
    SameButTime (reports ss (.updateRemoteStatus now a i) (.updateRemoteStatus now' b j))
      (reports ss (.updateRemoteStatus now' b j) (.updateRemoteStatus now a i))
  commuteTimed : ∀ now now' a b i j, i ≠ j → i ≠ 0 → j ≠ 0 → Timed ss a.id →
    reports ss (.updateRemoteStatus now a i) (.updateRemoteStatus now' b j) =
      reports ss (.updateRemoteStatus now' b j) (.updateRemoteStatus now a i)

/-- The status of a simulation after any run: its slots are summed up, slot 0 names it, and each
other slot is the last report for it. -/
theorem status_exact {cs : List Call} (hfresh : Steps (step true) Fresh ∅ cs)
    (hrun : run (step true) ∅ cs = some ss) : Exact ss cs where
  current _ _ _ result hv hmay := getCurrent_of_allowed hv hmay result
  slots := history_run hfresh hrun
  outOfRange now simStatus index v hv hlength := by
    simp only [apply, updateRemoteStatus, hv]
    exact if_neg (Nat.not_lt.mpr hlength)
  commute now now' a b _ _ hij := reports_comm ss hij now now' a b
  commuteTimed now now' _ b _ _ hij hi hj htime := reports_comm_of_timed hij hi hj now now' htime b

def twoServices : MicroServiceMetaVec := ⟨[{}, {}], by decide⟩

def startOfThree : List Call := [.startSim 0 twoServices "a" { devices := 3 } {}]

theorem startOfThree_fresh : Steps (step true) Fresh ∅ startOfThree :=
  steps_cons.mpr fun _ _ =>
    ⟨fun _ _ _ _ _ _ => Std.ExtTreeMap.getElem?_empty, steps_nil Fresh _⟩

theorem status_exact_started :
    Exact (startSim true 0 twoServices ∅ "a" { devices := 3 } {}) startOfThree :=
  status_exact startOfThree_fresh rfl

/-- The order of two reports decides whether the number of devices is ever met exactly. -/
theorem reports_ordered : ¬ ∀ cs ss, Steps (step true) Fresh ∅ cs →
    run (step true) ∅ cs = some ss → ∀ now now' a b i j, i ≠ j → i ≠ 0 → j ≠ 0 →
    reports ss (.updateRemoteStatus now a i) (.updateRemoteStatus now' b j) =
      reports ss (.updateRemoteStatus now' b j) (.updateRemoteStatus now a i) := by
  intro h
  have hcomm := h startOfThree _ startOfThree_fresh rfl 1 1 { id := "a", liveDevices := 3 }
    { id := "a", liveDevices := 2 } 1 2 (by decide) (by decide) (by decide)
  have htime := congrArg
    (fun ss => (getCurrent true ss "a" {} { userRole := .root }).timeToFullDevices) hcomm
  revert htime
  decide

end Owls.SimStats
