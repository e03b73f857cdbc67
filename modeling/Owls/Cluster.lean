import Mathlib.Logic.Function.Basic
import Owls.Base.Mirror
import Owls.Reports

/-!
# The master and its secondaries

A secondary keeps the statistics of its share of a simulation, and sends them to the master
each time its timer fires. The reports go over the network, and each has a slot on the master.
-/

open Machine Mirror

namespace Owls.Cluster

open SimStats StatusHandler SimulationCoordinator Reports

variable {V ι : Type} [JsonField V] [DecidableEq ι]

/-! ## The nodes and the network -/

structure State (ι : Type) where
  master : Statuses := ∅
  nodes : ι → Statuses := fun _ => ∅
  /-- The requests on their way to the master. -/
  flying : List Written := []

inductive Event (ι : Type) where
  /-- A call on the statistics of the master. -/
  | here (c : Call)
  /-- A call on the statistics of a secondary. -/
  | there (n : ι) (c : Call)
  /-- `onUpdateTimer` of a runner on a secondary. -/
  | report (n : ι) (r : RunnerArguments)
  /-- The request at this place reaches the status handler. -/
  | deliver (i : Nat) (now : UInt64)
  | lose (i : Nat)

variable (poco : Poco V) (publicEndPoint : ι → String)

def step (c : State ι) : Event ι → Option (State ι)
  | .here call => some { c with master := apply true c.master call }
  | .there n call =>
    some { c with nodes := Function.update c.nodes n (apply false (c.nodes n) call) }
  | .report n r =>
    match updateMasterSimulation poco (publicEndPoint n) (c.nodes n) r with
    | none => some c
    | some w => some { c with flying := c.flying ++ [w] }
  | .deliver i now => (c.flying[i]?).map fun w =>
    { c with flying := c.flying.eraseIdx i, master := delivered poco c.master w now }
  | .lose i => (c.flying[i]?).map fun _ => { c with flying := c.flying.eraseIdx i }

/-- The slot and the status that the handler takes from a request, if it accepts it. -/
def content (w : Written) : Option (UInt64 × SimulationStatus) :=
  (received poco w 0).bind fun r =>
    if r.id ≠ "" ∧ (initQueryBlock r.parameters).isSome ∧
        (getParameterNumber r.parameters "index" 0).isSome ∧ r.index ≠ 0 then
      (r.body.bind SimulationStatus.fromJson).map fun s => (r.index, s)
    else none

/-- The slot and the status, where they are of the simulation `id`. -/
def carries (id : String) (w : Written) : Option (Nat × SimulationStatus) :=
  (content poco w).bind fun (k, s) => if s.id = id then some (k.toNat, s) else none

/-- The share of the simulation that a node has. -/
def share (ss : Statuses) (id : String) : SimulationStatus := ((ss[id]?).map Slots.first).getD {}

variable {poco publicEndPoint} {c c' : State ι} {id : String} {ss : Statuses} {v : Slots}
  {w : Written} {k : UInt64} {s : SimulationStatus} {now : UInt64}

/-! ## Delivery -/

theorem content_of_passes {r : Request V} (hr : received poco w 0 = some r) (h : Passes r s) :
    content poco w = some (r.index, s) := by
  rw [content, hr, Option.bind_some, if_pos ⟨h.id_ne, h.query, h.index_some, h.index_ne⟩, h.body,
    Option.map_some]

theorem passes_of_content (h : content poco w = some (k, s)) :
    ∃ r, received poco w 0 = some r ∧ Passes r s ∧ r.index = k := by
  obtain ⟨r, hr, h⟩ := Option.bind_eq_some_iff.mp h
  split at h
  · rename_i hok
    obtain ⟨s', hs', heq⟩ := Option.map_eq_some_iff.mp h
    cases heq
    exact ⟨r, hr, ⟨hok.1, hok.2.1, hok.2.2.1, hok.2.2.2, hs'⟩, rfl⟩
  · cases h

omit [JsonField V] in
theorem received_now (now : UInt64) :
    received poco w now = (received poco w 0).map fun r => { r with now := now } := by
  unfold received
  split
  · rw [Option.map_map]
    rfl
  · rfl

theorem delivered_eq (now : UInt64) : delivered poco ss w now =
    match content poco w with
    | none => ss
    | some (k, s) => updateRemoteStatus true now ss s k := by
  unfold delivered
  rw [received_now]
  cases hr : received poco w 0 with
  | none =>
    have hcontent : content poco w = none := by rw [content, hr, Option.bind_none]
    rw [hcontent]
    rfl
  | some r =>
    rw [Option.map_some]
    by_cases hpasses : ∃ s, Passes r s
    · obtain ⟨s, h⟩ := hpasses
      have hnow : Passes { r with now := now } s :=
        ⟨h.id_ne, h.query, h.index_some, h.index_ne, h.body⟩
      rw [content_of_passes hr h]
      exact put_of_passes hnow
    · have hcontent : content poco w = none := by
        rw [Option.eq_none_iff_forall_ne_some]
        rintro ⟨k, s⟩ hks
        obtain ⟨r', hr', h, -⟩ := passes_of_content hks
        cases hr.symm.trans hr'
        exact hpasses ⟨s, h⟩
      rw [hcontent]
      refine put_of_refused fun s h => hpasses ⟨s, ?_⟩
      exact ⟨h.id_ne, h.query, h.index_some, h.index_ne, h.body⟩

/-! ## The slots of a simulation are of this simulation -/

def Named (ss : Statuses) : Prop :=
  ∀ (id : String) v, ss[id]? = some v → ∀ s ∈ v.toList, s.id = id

theorem named_modifyFirst {f : SimulationStatus → SimulationStatus} (hf : ∀ s, (f s).id = s.id)
    (h : ∀ s ∈ v.toList, s.id = id) : ∀ s ∈ (v.modifyFirst f).toList, s.id = id := by
  intro s hs
  rcases List.mem_cons.mp hs with rfl | hs
  · exact (hf v.first).trans (h v.first (List.mem_cons_self ..))
  · exact h s (List.mem_cons_of_mem _ hs)

theorem named_updated (master : Bool) (now : UInt64) (h : ∀ s ∈ v.toList, s.id = id) :
    ∀ s ∈ (v.updated master now).toList, s.id = id := by
  unfold Slots.updated
  split
  · exact named_modifyFirst (fun _ => rfl) h
  · exact h

theorem mem_set {k : Nat} {s t : SimulationStatus} (h : t ∈ (v.set k s).toList) :
    t = s ∨ t ∈ v.toList := by
  cases k with
  | zero => exact (List.mem_cons.mp h).imp_right fun h => List.mem_cons_of_mem _ h
  | succ k =>
    rcases List.mem_cons.mp h with rfl | h
    · exact .inr (List.mem_cons_self ..)
    · exact (List.mem_or_eq_of_mem_set h).symm.imp_right fun h => List.mem_cons_of_mem _ h

theorem named_report (master : Bool) (now index : UInt64) (hs : s.id = id)
    (h : ∀ s ∈ v.toList, s.id = id) : ∀ t ∈ (v.report master now s index).toList, t.id = id := by
  unfold Slots.report
  split
  · refine named_updated master now fun t ht => ?_
    rcases mem_set ht with rfl | ht
    · exact hs
    · exact h t ht
  · exact h

theorem named_start (master : Bool) (services : MicroServiceMetaVec) (hs : s.id = id)
    {o : Option Slots} (h : ∀ v, o = some v → ∀ s ∈ v.toList, s.id = id) :
    ∀ t ∈ (Slots.start master services s o).toList, t.id = id := by
  intro t ht
  cases o with
  | none =>
    rcases List.mem_cons.mp ht with rfl | ht
    · exact hs
    · rw [List.eq_of_mem_replicate ht, hs]
  | some v =>
    rcases List.mem_cons.mp ht with rfl | ht
    · exact h v rfl v.first (List.mem_cons_self ..)
    · rcases List.mem_append.mp ht with ht | ht
      · exact h v rfl t (List.mem_cons_of_mem _ ht)
      · rw [List.eq_of_mem_replicate ht, hs]

theorem named_apply (master : Bool) (h : Named ss) (call : Call) :
    Named (apply master ss call) := by
  intro id w hw
  rw [getElem?_apply] at hw
  by_cases hid : call.id = id
  · rw [if_pos hid] at hw
    have hv : ∀ v, ss[id]? = some v → ∀ s ∈ v.toList, s.id = id := fun v => h id v
    cases call with
    | startSim now services id' details uinfo =>
      cases hw
      exact named_start master services hid hv
    | removeSim id' => cases hw
    | connect now id' =>
      obtain ⟨v, hget, rfl⟩ := Option.map_eq_some_iff.mp hw
      exact named_updated master now (named_modifyFirst (fun _ => rfl) (hv v hget))
    | disconnect id' =>
      obtain ⟨v, hget, rfl⟩ := Option.map_eq_some_iff.mp hw
      refine named_modifyFirst (fun s => ?_) (hv v hget)
      split <;> rfl
    | updateRemoteStatus now s index =>
      obtain ⟨v, hget, rfl⟩ := Option.map_eq_some_iff.mp hw
      exact named_report master now index hid (hv v hget)
    | addOutMsg | addInMsg | endSim | setState =>
      obtain ⟨v, hget, rfl⟩ := Option.map_eq_some_iff.mp hw
      exact named_modifyFirst (fun _ => rfl) (hv v hget)
  · rw [if_neg hid] at hw
    exact h id w hw

theorem named_delivered (now : UInt64) (h : Named ss) : Named (delivered poco ss w now) := by
  rw [delivered_eq]
  split
  · exact h
  · rename_i k s hcontent
    exact named_apply true h (.updateRemoteStatus now s k)

/-- On the master and on the secondaries. -/
structure AllNamed (c : State ι) : Prop where
  master : Named c.master
  nodes : ∀ n, Named (c.nodes n)

omit [DecidableEq ι] in
theorem allNamed_init : AllNamed ({} : State ι) where
  master _ _ h := absurd h (by rw [Std.ExtTreeMap.getElem?_empty]; exact nofun)
  nodes _ _ _ h := absurd h (by rw [Std.ExtTreeMap.getElem?_empty]; exact nofun)

theorem allNamed_step {e : Event ι} (h : AllNamed c) (hc : step poco publicEndPoint c e = some c') :
    AllNamed c' := by
  cases e with
  | here call =>
    cases hc
    exact ⟨named_apply true h.master call, h.nodes⟩
  | there n call =>
    cases hc
    refine ⟨h.master, fun n' => ?_⟩
    by_cases hn : n' = n
    · subst hn
      simp only [Function.update_self]
      exact named_apply false (h.nodes n') call
    · simp only [Function.update_of_ne hn]
      exact h.nodes n'
  | report n r =>
    simp only [step] at hc
    split at hc <;> cases hc <;> exact ⟨h.master, h.nodes⟩
  | deliver i now =>
    obtain ⟨w, -, rfl⟩ := Option.map_eq_some_iff.mp hc
    exact ⟨named_delivered now h.master, h.nodes⟩
  | lose i =>
    obtain ⟨w, -, rfl⟩ := Option.map_eq_some_iff.mp hc
    exact ⟨h.master, h.nodes⟩

/-! ## Each simulation is mirrored -/

variable (poco) in
/-- A report goes out from the node that has its slot, its status is one that the master can
read, and the URI of the master has no query of its own. -/
structure Placed (place : String → Nat → ι) (c : State ι) (n : ι) (r : RunnerArguments) :
    Prop where
  place : place r.runningId r.index.toNat = n
  readable : Readable poco (current (c.nodes n) r)
  uri : ∀ uri, poco.uri r.masterURI = some uri → uri.query = []

variable (poco) in
/-- The master hears of the other nodes by their reports alone, and its running ids are new. -/
def Proper (place : String → Nat → ι) (c : State ι) : Event ι → Prop
  | .here call => (∀ now s k, call ≠ .updateRemoteStatus now s k) ∧ Fresh c.master call
  | .report n r => Placed poco place c n r
  | .there _ _ | .deliver _ _ | .lose _ => True

/-- The slots of the simulation, but for the master's own, over the nodes that they are for. -/
def view (place : String → Nat → ι) (id : String) (c : State ι) :
    View Nat SimulationStatus Written where
  now k := share (c.nodes (place id k)) id
  flying := c.flying
  shown k := if k = 0 then none else (c.master[id]?).bind fun v => v.toList[k]?

/-- What `StartSim` puts into a slot. -/
def Started (id : String) (s : SimulationStatus) : Prop :=
  ∃ now details uinfo, s = started now id details uinfo

variable {place : String → Nat → ι} {r : RunnerArguments} {n : ι} {uri : URI} {call : Call}
  {e : Event ι}

theorem current_cases (ss : Statuses) (r : RunnerArguments) :
    current ss r = {} ∨ ∃ v, ss[r.runningId]? = some v ∧ current ss r = v.first := by
  unfold current getCurrent
  cases hv : ss[r.runningId]? with
  | none => exact .inl rfl
  | some v =>
    by_cases hmay : r.uinfo.userRole = .root ∨ r.uinfo.email = v.first.owner
    · exact .inr ⟨v, rfl, by simp only [hmay, if_true, Bool.false_eq_true, if_false]⟩
    · exact .inl (by simp only [hmay, if_false])

theorem share_of_some (hv : ss[id]? = some v) : share ss id = v.first := by
  rw [share, hv]
  rfl

theorem content_writeRequest {ep : String} (hread : Readable poco (current ss r))
    (hquery : uri.query = [])
    (h : content poco (writeRequest poco ep r (current ss r) uri) = some (k, s)) :
    k = r.index ∧ s = current ss r := by
  obtain ⟨q, hq, hpasses, hk⟩ := passes_of_content h
  by_cases hscheme : uri.scheme = "https"
  · rw [received_writeRequest hread hscheme] at hq
    split at hq
    · cases hq
      obtain ⟨hs, -⟩ := reported_passes_iff.mp hpasses
      have hindex : getParameterNumber (uri.withIndex r.index) "index" 0 = some r.index := by
        refine getParameterNumber_toDecimal ?_
        rw [URI.withIndex, hquery]
        rfl
      exact ⟨hk.symm.trans (reported_index (V := V) hindex), hs⟩
    · cases hq
  · -- Over `http` there is no body to read.
    have hbody : (writeRequest poco ep r (current ss r) uri).body = "" := by
      simp only [writeRequest, beq_iff_eq, hscheme, if_false]
    rw [received, hbody, hread.1] at hq
    split at hq <;> cases hq

/-- What a report says of a simulation is what its node has of it, for the slot of the node. -/
structure Reported (place : String → Nat → ι) (c : State ι) (n : ι) (r : RunnerArguments)
    (id : String) (k : Nat) (s : SimulationStatus) : Prop where
  running : r.runningId = id
  index : k = r.index.toNat
  node : place id k = n
  said : share (c.nodes n) id = s

omit [DecidableEq ι] in
theorem reported_of_carries {ep : String} (hnamed : Named (c.nodes n))
    (hplaced : Placed poco place c n r) (hid : id ≠ "")
    (hw : updateMasterSimulation poco ep (c.nodes n) r = some w) {k : Nat}
    (hcarries : carries poco id w = some (k, s)) : Reported place c n r id k s := by
  obtain ⟨uri, huri, rfl⟩ := Option.map_eq_some_iff.mp hw
  obtain ⟨⟨index, s'⟩, hcontent, h⟩ := Option.bind_eq_some_iff.mp hcarries
  obtain ⟨rfl, rfl⟩ := content_writeRequest hplaced.readable (hplaced.uri uri huri) hcontent
  dsimp only at h
  split at h
  · rename_i hs
    cases h
    rcases current_cases (c.nodes n) r with hempty | ⟨v, hv, hcurrent⟩
    · rw [hempty] at hs
      exact absurd hs.symm hid
    · have hrunning : r.runningId = id := by
        rw [← hs, hcurrent]
        exact (hnamed r.runningId v hv v.first (List.mem_cons_self ..)).symm
      refine ⟨hrunning, rfl, by rw [← hrunning, hplaced.place], ?_⟩
      rw [hcurrent, ← hrunning]
      exact share_of_some hv
  · cases h

theorem rest_onSlots {w : Slots} (hlocal : ∀ now s k, call ≠ .updateRemoteStatus now s k)
    (hid : call.id = id) (hrenews : call.renews id = false)
    (hw : call.onSlots true (some v) = some w) : w.rest = v.rest := by
  cases call with
  | startSim | removeSim => exact absurd hid (of_decide_eq_false hrenews)
  | updateRemoteStatus now s k => exact absurd rfl (hlocal now s k)
  | connect now id' =>
    cases hw
    exact rest_updated true now
  | disconnect | addOutMsg | addInMsg | endSim | setState =>
    cases hw
    rfl

omit [DecidableEq ι] in
theorem shown_here (hlocal : ∀ now s k, call ≠ .updateRemoteStatus now s k)
    (hfresh : Fresh c.master call) {k : Nat}
    (hs : (view place id { c with master := apply true c.master call }).shown k = some s) :
    (view place id c).shown k = some s ∨ (view place id c).shown k = none ∧ Started id s := by
  cases k with
  | zero => cases hs
  | succ k =>
    simp only [view, Nat.add_one_ne_zero, if_false] at hs ⊢
    obtain ⟨w, hw, hs⟩ := Option.bind_eq_some_iff.mp hs
    rw [getElem?_apply] at hw
    by_cases hid : call.id = id
    · rw [if_pos hid] at hw
      by_cases hrenews : call.renews id = true
      · cases call with
        | startSim now services id' details uinfo =>
          have hid : id' = id := hid
          subst hid
          have hnone := hfresh now services id' details uinfo rfl
          rw [hnone] at hw ⊢
          cases hw
          have hs : (List.replicate services.toList.length (started now id' details uinfo))[k]? =
            some s := hs
          exact .inr ⟨rfl, now, details, uinfo,
            List.eq_of_mem_replicate (List.mem_of_getElem? hs)⟩
        | removeSim id' => cases hw
        | connect | disconnect | addOutMsg | addInMsg | endSim | setState
        | updateRemoteStatus => cases hrenews
      · rw [Bool.not_eq_true] at hrenews
        cases hv : c.master[id]? with
        | none =>
          rw [hv, onSlots_none hid hrenews] at hw
          cases hw
        | some v =>
          rw [hv] at hw
          refine .inl ?_
          rw [Slots.toList, rest_onSlots hlocal hid hrenews hw] at hs
          exact hs
    · rw [if_neg hid] at hw
      refine .inl ?_
      rw [hw]
      exact hs

theorem getElem?_report (now : UInt64) {i j : Nat} (hk : k.toNat = i + 1) :
    (v.report true now s k).toList[j + 1]? =
      if j = i then (v.rest[i]?).map fun _ => s else v.rest[j]? := by
  have hrest : (v.report true now s k).rest = v.rest.set i s := by
    rw [rest_report, hk]
    rfl
  rw [Slots.toList, List.getElem?_cons_succ, hrest]
  by_cases hij : j = i
  · rw [if_pos hij, hij, List.getElem?_set_self']
    rfl
  · rw [if_neg hij, List.getElem?_set_ne (Ne.symm hij)]

omit [DecidableEq ι] in
theorem shown_delivered (now : UInt64) :
    (view place id { c with master := delivered poco c.master w now }).shown =
      learn (view place id c).shown (carries poco id w) := by
  rw [delivered_eq, carries]
  cases hcontent : content poco w with
  | none => rfl
  | some ks =>
    obtain ⟨k, s⟩ := ks
    obtain ⟨q, -, hpasses, rfl⟩ := passes_of_content hcontent
    obtain ⟨i, hi⟩ := exists_toNat_eq_succ hpasses.index_ne
    dsimp only [Option.bind_some]
    by_cases hid : s.id = id
    · rw [if_pos hid, hi]
      funext j
      cases j with
      | zero =>
        rw [learn, if_neg (Nat.zero_ne_add_one i)]
        rfl
      | succ j =>
        simp only [view, learn, Nat.add_one_ne_zero, if_false, Nat.add_right_cancel_iff]
        rw [← hid, getElem?_updateRemoteStatus]
        cases c.master[s.id]? with
        | none => simp
        | some v => exact getElem?_report now hi
    · rw [if_neg hid]
      funext j
      have hother : (updateRemoteStatus true now c.master s q.index)[id]? = c.master[id]? :=
        getElem?_apply_of_ne (c := .updateRemoteStatus now s q.index) hid
      simp only [view, learn, hother]

omit [DecidableEq ι] in
theorem taken {i : Nat} (hw : c.flying[i]? = some w) :
    c.flying = c.flying.take i ++ w :: c.flying.drop (i + 1) := by
  obtain ⟨hi, rfl⟩ := List.getElem?_eq_some_iff.mp hw
  rw [List.cons_getElem_drop_succ, List.take_append_drop]

theorem view_step (hnamed : AllNamed c) (hproper : Proper poco place c e) (hid : id ≠ "")
    (hc : step poco publicEndPoint c e = some c') :
    Mirror.Step (carries poco id) (Started id) (view place id c) (view place id c') := by
  cases e with
  | here call =>
    cases hc
    exact .renew (view place id c) _ fun k s hs => shown_here hproper.1 hproper.2 hs
  | there n call =>
    cases hc
    exact .change (view place id c) _
  | report n r =>
    simp only [step] at hc
    split at hc
    · cases hc
      exact .change (view place id c) (view place id c).now
    · rename_i w hw
      cases hc
      refine .send (view place id c) w fun k s hs => ?_
      have hreported := reported_of_carries (hnamed.nodes n) hproper hid hw hs
      rw [← hreported.said, ← hreported.node]
      rfl
  | deliver i now =>
    obtain ⟨w, hw, rfl⟩ := Option.map_eq_some_iff.mp hc
    have harrive : Mirror.Step (carries poco id) (Started id) (view place id c) _ :=
      .arrive _ _ w _ (taken hw)
    rw [← List.eraseIdx_eq_take_drop_succ, ← shown_delivered now] at harrive
    exact harrive
  | lose i =>
    obtain ⟨w, hw, rfl⟩ := Option.map_eq_some_iff.mp hc
    have hlose : Mirror.Step (carries poco id) (Started id) (view place id c) _ :=
      .lose _ _ w _ (taken hw)
    rw [← List.eraseIdx_eq_take_drop_succ] at hlose
    exact hlose

theorem allNamed_run {c₀ : State ι} {es : List (Event ι)} (h : AllNamed c₀)
    (hrun : run (step poco publicEndPoint) c₀ es = some c) : AllNamed c :=
  (always_of_step h (fun _ _ _ h hc => allNamed_step h hc) es).here hrun

variable (place) in
theorem follows_of_proper {c₀ : State ι} {es : List (Event ι)} (h : AllNamed c₀) (hid : id ≠ "")
    (hproper : Steps (step poco publicEndPoint) (Proper poco place) c₀ es) :
    Follows (carries poco id) (Started id) (step poco publicEndPoint) (view place id) c₀ es :=
  fun p e hp _ _ ht hu => view_step (allNamed_run h ht) (hproper p e hp _ _ ht hu) hid hu

/-! ## What the master shows -/

variable {c₀ : State ι} {es fs : List (Event ι)}

omit [DecidableEq ι] in
theorem started_init (place : String → Nat → ι) {k : Nat}
    (h : (view place id ({} : State ι)).shown k = some s) : Started id s := by
  have hnone : (({} : State ι).master)[id]? = none := Std.ExtTreeMap.getElem?_empty
  simp only [view, hnone, Option.bind_none, ite_self, reduceCtorEq] at h

omit [DecidableEq ι] in
theorem shown_eq {k : Nat} (hk : k ≠ 0) (hv : c.master[id]? = some v) :
    (view place id c).shown k = v.toList[k]? := by
  simp only [view, hk, if_false, hv, Option.bind_some]

/-- However the calls and the reports of all nodes come together, and whatever the network
does, each slot of the master holds what its node had of the simulation at some moment. -/
theorem master_shows_past (hid : id ≠ "")
    (hproper : Steps (step poco publicEndPoint) (Proper poco place) {} es)
    (hrun : run (step poco publicEndPoint) {} es = some c) (hv : c.master[id]? = some v) {k : Nat}
    (hk : k ≠ 0) (hs : v.toList[k]? = some s) :
    Started id s ∨ ∃ p c' v', p <+: es ∧ run (step poco publicEndPoint) {} p = some c' ∧
      (c'.nodes (place id k))[id]? = some v' ∧ v'.first = s := by
  have hpast := past_run (follows_of_proper place allNamed_init hid hproper) rfl
    (fun k s h => started_init place h) hrun
  refine (hpast.shown k s (by rw [shown_eq hk hv, hs])).imp_right ?_
  rintro ⟨p, c', hp, hc', hnow⟩
  have hname : s.id = id :=
    (allNamed_run allNamed_init hrun).master id v hv s (List.mem_of_getElem? hs)
  have hnow : share (c'.nodes (place id k)) id = s := hnow
  cases hv' : (c'.nodes (place id k))[id]? with
  | none =>
    rw [share, hv'] at hnow
    rw [← hnow] at hname
    exact absurd hname.symm hid
  | some v' => exact ⟨p, c', v', hp, hc', hv', (share_of_some hv').symm.trans hnow⟩

/-! ## One report at a time -/

variable (poco) in
/-- A runner waits for the answer to its report before its next one. -/
def Waits (c : State ι) : Event ι → Prop
  | .report _ r => ∀ w ∈ c.flying, ∀ s, carries poco r.runningId w ≠ some (r.index.toNat, s)
  | .here _ | .there _ _ | .deliver _ _ | .lose _ => True

theorem single_step (hnamed : AllNamed c) (hproper : Proper poco place c e) (hid : id ≠ "")
    (hwaits : Waits poco c e) (hc : step poco publicEndPoint c e = some c')
    (h : Single (carries poco id) (view place id c)) :
    Single (carries poco id) (view place id c') := by
  cases e with
  | here call | there n call =>
    cases hc
    exact h
  | report n r =>
    simp only [step] at hc
    split at hc
    · cases hc
      exact h
    · rename_i w hw
      cases hc
      refine h.send (m := w) rfl fun k s hs w' hw' s' hs' => ?_
      have hreported := reported_of_carries (hnamed.nodes n) hproper hid hw hs
      refine hwaits w' hw' s' ?_
      rw [hreported.running, ← hreported.index]
      exact hs'
  | deliver i now =>
    obtain ⟨w, hw, rfl⟩ := Option.map_eq_some_iff.mp hc
    exact h.rest (taken hw) (List.eraseIdx_eq_take_drop_succ ..)
  | lose i =>
    obtain ⟨w, hw, rfl⟩ := Option.map_eq_some_iff.mp hc
    exact h.rest (taken hw) (List.eraseIdx_eq_take_drop_succ ..)

variable (poco publicEndPoint) in
/-- No share of the simulation goes down in this step. -/
def Grows {α : Type*} [Preorder α] (f : SimulationStatus → α) (id : String) (c : State ι)
    (e : Event ι) : Prop :=
  ∀ c', step poco publicEndPoint c e = some c' →
    ∀ n, f (share (c.nodes n) id) ≤ f (share (c'.nodes n) id)

/-- What only grows on the nodes only grows in the slots of the master, as long as each runner
waits for the answer to its last report. -/
theorem master_never_back {α : Type*} [Preorder α] {f : SimulationStatus → α}
    (hleast : ∀ s, Started id s → ∀ t, f s ≤ f t) (hid : id ≠ "")
    (hproper : Steps (step poco publicEndPoint) (Proper poco place) {} es)
    (hwaits : Steps (step poco publicEndPoint) (Waits poco) {} es)
    (hgrows : Steps (step poco publicEndPoint) (Grows poco publicEndPoint f id) {} es)
    {p : List (Event ι)} (hp : p ++ [e] <+: es) (hc : run (step poco publicEndPoint) {} p = some c)
    (hc' : step poco publicEndPoint c e = some c') {v w : Slots} (hv : c.master[id]? = some v)
    (hw : c'.master[id]? = some w) {k : Nat} (hk : k ≠ 0) {s t : SimulationStatus}
    (hs : v.toList[k]? = some s) (ht : w.toList[k]? = some t) : f s ≤ f t := by
  have hnone : (({} : State ι).flying) = [] := rfl
  have hordered : Ordered (carries poco id) f (view place id ({} : State ι)) :=
    { flying := fun m hm => absurd hm (List.not_mem_nil)
      shown := fun k s h => hleast s (started_init place h) _
      behind := fun m hm => absurd hm (List.not_mem_nil) }
  have hsingle : Always (step poco publicEndPoint)
      (fun c => Single (carries poco id) (view place id c)) {} es := by
    refine always_of_prefix List.nodup_nil fun q e hq c c' hc hc' h => ?_
    exact single_step (allNamed_run allNamed_init hc) (hproper q e hq c c' hc hc') hid
      (hwaits q e hq c c' hc hc') hc' h
  refine shown_grows hleast (follows_of_proper place allNamed_init hid hproper) hordered
    hsingle (fun q e hq c c' hc hc' u hu k => hgrows q e hq c c' hc hc' u hu (place id k)) hp hc hc'
    (i := k) ?_ ?_
  · rw [shown_eq hk hv, hs]
  · rw [shown_eq hk hw, ht]

/-! ## A quiet round -/

/-- No node does anything for the simulation, and the master keeps it. -/
def Quiet (id : String) : Event ι → Prop
  | .here call => call.renews id = false
  | .there _ call => call.id ≠ id
  | .report _ _ | .deliver _ _ | .lose _ => True

variable (poco) in
/-- A report for the slot is delivered. -/
def Delivers (id : String) (k : Nat) (c : State ι) (e : Event ι) : Prop :=
  ∃ i now w s, e = .deliver i now ∧ c.flying[i]? = some w ∧ carries poco id w = some (k, s)

theorem onSlots_kept (hlocal : ∀ now s k, call ≠ .updateRemoteStatus now s k) (hid : call.id = id)
    (hrenews : call.renews id = false) (v : Slots) :
    ∃ w, call.onSlots true (some v) = some w ∧ w.rest = v.rest := by
  have hsome : ∃ w, call.onSlots true (some v) = some w := by
    cases call with
    | startSim | removeSim => exact absurd hid (of_decide_eq_false hrenews)
    | connect | disconnect | addOutMsg | addInMsg | endSim | setState
    | updateRemoteStatus => exact ⟨_, rfl⟩
  obtain ⟨w, hw⟩ := hsome
  exact ⟨w, hw, rest_onSlots hlocal hid hrenews hw⟩

theorem length_quiet (hproper : Proper poco place c e) (hquiet : Quiet id e)
    (hc : step poco publicEndPoint c e = some c') (hv : c.master[id]? = some v) :
    ∃ w, c'.master[id]? = some w ∧ w.rest.length = v.rest.length := by
  cases e with
  | here call =>
    cases hc
    dsimp only
    rw [getElem?_apply]
    by_cases hid : call.id = id
    · obtain ⟨w, hw, hrest⟩ := onSlots_kept hproper.1 hid hquiet v
      rw [if_pos hid, hv]
      exact ⟨w, hw, by rw [hrest]⟩
    · rw [if_neg hid]
      exact ⟨v, hv, rfl⟩
  | there n call =>
    cases hc
    exact ⟨v, hv, rfl⟩
  | report n r =>
    simp only [step] at hc
    split at hc <;> cases hc <;> exact ⟨v, hv, rfl⟩
  | deliver i now =>
    obtain ⟨w, -, rfl⟩ := Option.map_eq_some_iff.mp hc
    dsimp only
    rw [delivered_eq]
    split
    · exact ⟨v, hv, rfl⟩
    · rename_i k s hcontent
      by_cases hid : s.id = id
      · subst hid
        rw [getElem?_updateRemoteStatus, hv]
        refine ⟨_, rfl, ?_⟩
        rw [rest_report]
        cases k.toNat with
        | zero => rfl
        | succ j => exact List.length_set
      · exact ⟨v, (getElem?_apply_of_ne (c := .updateRemoteStatus now s k) hid).trans hv, rfl⟩
  | lose i =>
    obtain ⟨w, -, rfl⟩ := Option.map_eq_some_iff.mp hc
    exact ⟨v, hv, rfl⟩

omit [DecidableEq ι] in
theorem steps_quiet (hquiet : ∀ e ∈ fs, Quiet id e) {p : List (Event ι)} (hp : p ++ [e] <+: fs) :
    Quiet id e :=
  hquiet e (hp.subset (List.mem_append_right p (List.mem_singleton_self e)))

theorem length_run (hproper : Steps (step poco publicEndPoint) (Proper poco place) c₀ fs)
    (hquiet : ∀ e ∈ fs, Quiet id e) {v₀ : Slots} (hv₀ : c₀.master[id]? = some v₀) :
    Always (step poco publicEndPoint)
      (fun c => ∃ v, c.master[id]? = some v ∧ v.rest.length = v₀.rest.length) c₀ fs := by
  refine always_of_prefix ⟨v₀, hv₀, rfl⟩ fun p e hp c c' hc hc' h => ?_
  obtain ⟨v, hv, hlength⟩ := h
  obtain ⟨w, hw, hw'⟩ := length_quiet (hproper p e hp c c' hc hc') (steps_quiet hquiet hp) hc' hv
  exact ⟨w, hw, hw'.trans hlength⟩

theorem share_quiet (hquiet : Quiet id e) (hc : step poco publicEndPoint c e = some c') (n : ι) :
    share (c'.nodes n) id = share (c.nodes n) id := by
  cases e with
  | here call =>
    cases hc
    rfl
  | there m call =>
    cases hc
    by_cases hn : n = m
    · subst hn
      simp only [Function.update_self, share, getElem?_apply_of_ne hquiet]
    · simp only [Function.update_of_ne hn]
  | report m r =>
    simp only [step] at hc
    split at hc <;> cases hc <;> rfl
  | deliver i now | lose i =>
    obtain ⟨w, -, rfl⟩ := Option.map_eq_some_iff.mp hc
    rfl

theorem share_run (hquiet : ∀ e ∈ fs, Quiet id e) (n : ι) :
    Always (step poco publicEndPoint) (fun c => share (c.nodes n) id = share (c₀.nodes n) id)
      c₀ fs :=
  always_of_prefix rfl fun _ _ hp _ _ _ hc' h => (share_quiet (steps_quiet hquiet hp) hc' n).trans h

theorem arrives_of_delivers {k : Nat} (hdelivers : Delivers poco id k c e)
    (hc : step poco publicEndPoint c e = some c') :
    Arrives (carries poco id) k (view place id c) (view place id c') := by
  obtain ⟨i, now, w, s, rfl, hw, hs⟩ := hdelivers
  obtain ⟨w', hw', rfl⟩ := Option.map_eq_some_iff.mp hc
  cases hw.symm.trans hw'
  refine ⟨_, w, _, s, taken hw, hs, ?_⟩
  rw [← hs, ← shown_delivered now, ← List.eraseIdx_eq_take_drop_succ]
  rfl

/-- What the nodes have of the simulation, beside the slot 0 of the master. -/
def shares (place : String → Nat → ι) (c : State ι) (id : String) (n : Nat) :
    List SimulationStatus :=
  (List.range n).map fun k => share (c.nodes (place id (k + 1))) id

/-- While the nodes do nothing for a simulation and none of its reports is out of date, one
report for each slot makes the totals of the master those of all nodes, whatever was lost or
out of order before. -/
theorem totals_exact_after_round (hid : id ≠ "")
    (hproper : Steps (step poco publicEndPoint) (Proper poco place) {} (es ++ fs))
    (hc₀ : run (step poco publicEndPoint) {} es = some c₀)
    (hc : run (step poco publicEndPoint) c₀ fs = some c)
    {v₀ : Slots} (hv₀ : c₀.master[id]? = some v₀) (hquiet : ∀ e ∈ fs, Quiet id e)
    (hclean : ∀ w ∈ c₀.flying, ∀ k s, carries poco id w = some (k, s) →
      s = share (c₀.nodes (place id k)) id)
    (hround : ∀ k, k ≠ 0 → k < v₀.toList.length →
      Happens (step poco publicEndPoint) (fun c e _ => Delivers poco id k c e) c₀ fs) :
    ∃ v, c.master[id]? = some v ∧ v.rest = shares place c id v₀.rest.length ∧
      ∀ uinfo result, uinfo.userRole = .root ∨ uinfo.email = v.first.owner →
        getCurrent true c.master id result uinfo =
          Slots.summary ⟨v.first, shares place c id v₀.rest.length⟩ := by
  have hproper₀ := hproper.of_suffix hc₀
  have hfollows := follows_of_proper place (allNamed_run allNamed_init hc₀) hid hproper₀
  have hlengths := length_run hproper₀ hquiet hv₀
  obtain ⟨v, hv, hlength⟩ := hlengths.here hc
  have hrest : v.rest = shares place c id v₀.rest.length := by
    apply List.ext_getElem?
    intro j
    by_cases hj : j < v₀.rest.length
    · have hstays : Stays (step poco publicEndPoint) (view place id) (j + 1) c₀ fs := by
        constructor
        · exact fun p t hp ht => share_run hquiet (place id (j + 1)) p hp t ht
        · intro p t hp ht
          obtain ⟨w, hw, hwlength⟩ := hlengths p hp t ht
          have hlt : j + 1 < w.toList.length := by
            rw [Slots.toList, List.length_cons, hwlength]
            exact Nat.succ_lt_succ hj
          rw [shown_eq (Nat.add_one_ne_zero j) hw, List.getElem?_eq_getElem hlt]
          rfl
      obtain ⟨p, e, t, u, hp, ht, hu, hdelivers⟩ :=
        hround (j + 1) (Nat.add_one_ne_zero j) (Nat.succ_lt_succ hj)
      have hsettled := settled_of_arrival hfollows hstays (fun w hw s => hclean w hw (j + 1) s)
        ⟨p, e, t, u, hp, ht, hu, arrives_of_delivers hdelivers hu⟩ hc
      have hshown := hsettled.shown
      rw [shown_eq (Nat.add_one_ne_zero j) hv] at hshown
      rw [shares, List.getElem?_map, List.getElem?_range hj]
      exact hshown
    · rw [List.getElem?_eq_none (by omega), shares, List.getElem?_eq_none (by simpa using hj)]
  refine ⟨v, hv, hrest, fun uinfo result hmay => ?_⟩
  rw [getCurrent_of_allowed hv hmay, ← hrest]

/-! ## One report -/

section OneRound

open SimulationHandler (Plain)

def connected : SimulationStatus := { oneSlot with liveDevices := 1 }

/-- A JSON library that can read one text. -/
def clusterPoco : Poco Plain :=
  { onePoco with
    parse := fun t =>
      if t = render connected.toJson then some (.ofFields connected.toJson) else none }

def clusterStart : List (Event Unit) :=
  [.here (.startSim 3 oneService "run" { id := "d" } { email := "o" }),
   .there () (.startSim 3 ⟨[], MicroServiceMetaVec.fits_nil⟩ "run" { id := "d" } { email := "o" }),
   .there () (.connect 4 "run")]

def clusterRound : List (Event Unit) := [.report () (oneRunner "https"), .deliver 0 9]

abbrev clusterStep : State Unit → Event Unit → Option (State Unit) := step clusterPoco fun _ => "e"

def clusterPlace : String → Nat → Unit := fun _ _ => ()

theorem clusterPoco_parse (t : String) : clusterPoco.parse t =
    if t = render connected.toJson then some (.ofFields connected.toJson) else none := rfl

theorem clusterPoco_readable : Readable clusterPoco connected := by
  constructor
  · rw [clusterPoco_parse, if_neg (render_ne _).symm]
  · exact (clusterPoco_parse _).trans (if_pos rfl)

def clusterNode : Statuses :=
  connect false 4
    (startSim false 3 ⟨[], MicroServiceMetaVec.fits_nil⟩ ∅ "run" { id := "d" } { email := "o" }) "run"

theorem current_clusterNode : current clusterNode (oneRunner "https") = connected := by
  have hget : clusterNode["run"]? = some ⟨connected, []⟩ := by decide +kernel
  exact current_of_own (r := oneRunner "https") hget (.inr rfl)

/-- The nodes once the device is connected. -/
def clusterStarted : State Unit where
  master := startSim true 3 oneService ∅ "run" { id := "d" } { email := "o" }
  nodes _ := clusterNode

def clusterReport : Written :=
  writeRequest clusterPoco "e" (oneRunner "https") connected
    { scheme := "https", host := "m", port := 16004 }

theorem cluster_started : run clusterStep {} clusterStart = some clusterStarted := rfl

theorem cluster_report : clusterStep clusterStarted (.report () (oneRunner "https")) =
    some { clusterStarted with flying := [clusterReport] } := by
  have hw : updateMasterSimulation clusterPoco "e" (clusterStarted.nodes ()) (oneRunner "https") =
      some clusterReport := by
    have hcurrent : current (clusterStarted.nodes ()) (oneRunner "https") = connected :=
      current_clusterNode
    rw [updateMasterSimulation, hcurrent]
    rfl
  simp only [clusterStep, step, hw]
  rfl

theorem clusterReport_content : content clusterPoco clusterReport = some (1, connected) := by
  have hpasses : Passes (reported (V := Plain) clusterNode (oneRunner "https")
      { scheme := "https", host := "m", port := 16004 } 0) connected :=
    reported_passes_iff.mpr
      ⟨current_clusterNode.symm, by decide, by decide, 1, by decide, by decide⟩
  have hread : Readable clusterPoco (current clusterNode (oneRunner "https")) := by
    rw [current_clusterNode]
    exact clusterPoco_readable
  refine content_of_passes ?_ hpasses
  rw [clusterReport, ← current_clusterNode, received_writeRequest hread rfl]
  exact if_pos (by decide)

/-- The report has arrived. -/
def clusterDone : State Unit :=
  { clusterStarted with
    master := updateRemoteStatus true 9 clusterStarted.master connected 1 }

theorem cluster_deliver :
    clusterStep { clusterStarted with flying := [clusterReport] } (.deliver 0 9) =
      some clusterDone := by
  have hmaster : delivered clusterPoco clusterStarted.master clusterReport 9 =
      clusterDone.master := by
    rw [delivered_eq, clusterReport_content]
    rfl
  have hstep : clusterStep { clusterStarted with flying := [clusterReport] } (.deliver 0 9) =
      some { clusterStarted with
        master := delivered clusterPoco clusterStarted.master clusterReport 9 } := rfl
  rw [hstep, hmaster]
  rfl

theorem cluster_round : run clusterStep clusterStarted clusterRound = some clusterDone := by
  rw [clusterRound, run_cons, cluster_report, Option.bind_some, run_cons, cluster_deliver]
  rfl

theorem cluster_placed (c : State Unit) (hc : c.nodes () = clusterNode) :
    Placed clusterPoco clusterPlace c () (oneRunner "https") where
  place := rfl
  readable := by
    rw [hc, current_clusterNode]
    exact clusterPoco_readable
  uri uri huri := by
    cases huri
    rfl

theorem cluster_proper : Steps clusterStep (Proper clusterPoco clusterPlace) {}
    (clusterStart ++ clusterRound) := by
  refine steps_cons.mpr fun c hc => ⟨⟨nofun, ?_⟩, ?_⟩
  · intro _ _ _ _ _ h
    cases h
    exact Std.ExtTreeMap.getElem?_empty
  cases hc
  refine steps_cons.mpr fun c hc => ⟨trivial, ?_⟩
  cases hc
  refine steps_cons.mpr fun c hc => ⟨trivial, ?_⟩
  cases hc
  refine steps_cons.mpr fun c hc => ⟨cluster_placed _ rfl, ?_⟩
  exact steps_cons.mpr fun c hc => ⟨trivial, steps_nil _ _⟩

theorem cluster_delivers : Happens clusterStep (fun c e _ => Delivers clusterPoco "run" 1 c e)
    clusterStarted clusterRound := by
  refine (happens_cons cluster_report).mpr (.inr ((happens_cons cluster_deliver).mpr (.inl ?_)))
  refine ⟨0, 9, clusterReport, connected, rfl, rfl, ?_⟩
  rw [carries, clusterReport_content]
  rfl

theorem master_shows_past_connected : Started "run" connected ∨ ∃ p c' v',
    p <+: clusterStart ++ clusterRound ∧ run clusterStep {} p = some c' ∧
      (c'.nodes (clusterPlace "run" 1))["run"]? = some v' ∧ v'.first = connected := by
  have hrun : run clusterStep {} (clusterStart ++ clusterRound) = some clusterDone := by
    rw [run_append, cluster_started, Option.bind_some, cluster_round]
  have hget : clusterDone.master["run"]? =
      some ⟨started 3 "run" { id := "d" } { email := "o" }, [connected]⟩ := by decide +kernel
  have hslot : (⟨started 3 "run" { id := "d" } { email := "o" }, [connected]⟩ : Slots).toList[1]? =
    some connected := rfl
  exact master_shows_past (by decide) cluster_proper hrun hget (by decide) hslot

theorem totals_exact_after_one_round :
    getCurrent true clusterDone.master "run" {} { userRole := .root } =
      Slots.summary ⟨started 3 "run" { id := "d" } { email := "o" }, [connected]⟩ := by
  have hget : clusterStarted.master["run"]? = some ⟨started 3 "run" { id := "d" } { email := "o" },
      [started 3 "run" { id := "d" } { email := "o" }]⟩ := by decide +kernel
  have hquiet : ∀ e ∈ clusterRound, Quiet "run" e := by simp [clusterRound, Quiet]
  have hdelivers : ∀ k, k ≠ 0 → k < 2 → Happens clusterStep
      (fun c e _ => Delivers clusterPoco "run" k c e) clusterStarted clusterRound := by
    intro k hk hlt
    obtain rfl : k = 1 := by omega
    exact cluster_delivers
  obtain ⟨v, hv, -, hcurrent⟩ := totals_exact_after_round (by decide) cluster_proper
    cluster_started cluster_round hget hquiet (fun w hw => absurd hw List.not_mem_nil) hdelivers
  have hdone : clusterDone.master["run"]? =
      some ⟨started 3 "run" { id := "d" } { email := "o" }, [connected]⟩ := by decide +kernel
  cases hdone.symm.trans hv
  exact (hcurrent _ _ (.inl rfl)).trans (by decide +kernel)

def liveNumber (s : SimulationStatus) : Nat := s.liveDevices.toNat

theorem cluster_waits :
    Steps clusterStep (Waits clusterPoco) {} (clusterStart ++ clusterRound) := by
  refine steps_cons.mpr fun c hc => ⟨trivial, ?_⟩
  cases hc
  refine steps_cons.mpr fun c hc => ⟨trivial, ?_⟩
  cases hc
  refine steps_cons.mpr fun c hc => ⟨trivial, ?_⟩
  cases hc
  refine steps_cons.mpr fun c hc => ⟨fun w hw => absurd hw List.not_mem_nil, ?_⟩
  exact steps_cons.mpr fun c hc => ⟨trivial, steps_nil _ _⟩

theorem cluster_grows : Steps clusterStep
    (Grows clusterPoco (fun _ => "e") liveNumber "run") {} (clusterStart ++ clusterRound) := by
  refine steps_cons.mpr fun c hc => ⟨fun c' hc' n => ?_, ?_⟩
  · cases hc'
    exact Nat.le_refl _
  cases hc
  refine steps_cons.mpr fun c hc => ⟨fun c' hc' n => ?_, ?_⟩
  · cases hc'
    exact Nat.zero_le _
  cases hc
  refine steps_cons.mpr fun c hc => ⟨fun c' hc' n => ?_, ?_⟩
  · cases hc'
    exact (show 0 ≤ 1 by decide)
  cases hc
  have hreport : Quiet "run" (.report () (oneRunner "https")) := trivial
  have hdeliver : Quiet "run" (.deliver 0 9 : Event Unit) := trivial
  refine steps_cons.mpr fun c hc => ⟨fun c' hc' n => ?_, ?_⟩
  · rw [share_quiet hreport hc' n]
  refine steps_cons.mpr fun c hc => ⟨fun c' hc' n => ?_, steps_nil _ _⟩
  rw [share_quiet hdeliver hc' n]

theorem master_never_back_connected :
    liveNumber (started 3 "run" { id := "d" } { email := "o" }) ≤ liveNumber connected := by
  have hbefore : run clusterStep {} (clusterStart ++ [.report () (oneRunner "https")]) =
      some { clusterStarted with flying := [clusterReport] } := by
    rw [run_append, cluster_started, Option.bind_some, run_cons, cluster_report]
    rfl
  have hv : clusterStarted.master["run"]? = some ⟨started 3 "run" { id := "d" } { email := "o" },
      [started 3 "run" { id := "d" } { email := "o" }]⟩ := by decide +kernel
  have hw : clusterDone.master["run"]? =
      some ⟨started 3 "run" { id := "d" } { email := "o" }, [connected]⟩ := by decide +kernel
  have hleast : ∀ s, Started "run" s → ∀ t, liveNumber s ≤ liveNumber t := by
    rintro s ⟨now, details, uinfo, rfl⟩ t
    exact Nat.zero_le _
  have hp : (clusterStart ++ [.report () (oneRunner "https")]) ++ [.deliver 0 9] <+:
      clusterStart ++ clusterRound := List.prefix_rfl
  exact master_never_back hleast (by decide) cluster_proper cluster_waits cluster_grows hp hbefore
    cluster_deliver hv hw (k := 1) (by decide) rfl rfl

end OneRound

end Owls.Cluster
