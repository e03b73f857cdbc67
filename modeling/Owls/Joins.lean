import Owls.Keys
import Owls.Operation

/-!
# The starts of a secondary

What a master's request to join a simulation does to the simulations that already run here. The
handler's requests come in any order with the steps of the coordinator and of the devices.
-/

open Machine

namespace Owls.Joins

open SimulationCoordinator Operation Coordination

/-! ## The machine -/

/-- The node is a secondary. -/
def secondary (node : Node) : Node := { node with master := false }

inductive Event where
  | request (r : Request)
  | other (e : Coordination.Event)

/-- The calls that come through the handler only. -/
def ofHandler : Coordination.Event → Bool
  | .startSim .. | .startSimJoining .. | .stopSim .. | .cancelSim .. => true
  | _ => false

variable (node : Node)

def step (s : System) : Event → Option System
  | .request r =>
    match handleRequest (secondary node) s.state r with
    | some (_, t) => some { s with state := t }
    | none => some s
  | .other e => if ofHandler e then none else Coordination.step (secondary node) s e

/-! ## What a request can do -/

/-- The handler accepts the request, as a start of the running id `id`. -/
structure Starting (s : State) (r : Request) (id : String) : Prop where
  simId : r.simId ≠ ""
  operation : hasParameter r.parameters "operation" = some "start"
  block : ∃ qb, initQueryBlock r.parameters = some qb ∧ qb.offset ≠ 0 ∧ qb.limit ≠ 0
  runningId : getParameter r.parameters "joinRunningId" "" = id ∧ id ≠ ""
  master : getParameter r.parameters "masterURI" "" ≠ "" ∧
    getParameter r.parameters "accessKey" "" ≠ ""
  index : ∃ index, getParameterNumber r.parameters "index" 0 = some index ∧ index ≠ 0
  found : r.found = true ∧ (s.simulationDB.getRecord r.simId).isSome

inductive Served (s : System) (r : Request) : System → Prop where
  | started {e : Coordination.Event} {a : RunnerArguments} (h : Starting s.state r a.runningId)
      (hstep : Coordination.step (secondary node) s e =
        some { s with state := addSimulation (secondary node) s.state a r.now }) :
    Served s r { s with state := addSimulation (secondary node) s.state a r.now }
  | ended {e : Coordination.Event} {u : System} (h : ∀ id, ¬ Starting s.state r id)
      (he : e.start? = none) (hstep : Coordination.step (secondary node) s e = some u) :
    Served s r u
  | refused (h : ∀ id, ¬ Starting s.state r id) : Served s r s

variable {node} {s u : System} {e : Event} {id : String}

theorem answer_settles (t : State) (r : Request) (runningId : String)
    (x : Except Errors.Msg State) : (answer (secondary node) t r runningId x).2 = settle t x := by
  cases x <;> rfl

theorem served_of_start {r : Request} {a : SimulationDetails → RunnerArguments}
    {e : Coordination.Event}
    (hargs : ∀ details, (a details).runningId = getParameter r.parameters "joinRunningId" "")
    (hstep : Coordination.step (secondary node) s e = some { s with
      state := settle s.state (startRunner (secondary node) s.state r.simId r.found r.now a) })
    (hstarting : (r.found = true ∧ (s.state.simulationDB.getRecord r.simId).isSome) →
      Starting s.state r (getParameter r.parameters "joinRunningId" "")) :
    Served node s r { s with
      state := settle s.state (startRunner (secondary node) s.state r.simId r.found r.now a) } := by
  rcases startRunner_settles r.simId r.found r.now a with ⟨hnot, hsame⟩ | ⟨hfinds, d, -, hadd⟩
  · rw [hsame]
    exact .refused fun id h => hnot h.found
  · rw [hadd] at hstep ⊢
    exact .started (hargs d ▸ hstarting hfinds) hstep

theorem served {r : Request} {reply : Reply} {t : State}
    (h : handleRequest (secondary node) s.state r = some (reply, t)) :
    Served node s r { s with state := t } := by
  simp only [handleRequest, Option.bind_eq_bind, Option.bind_eq_some_iff] at h
  obtain ⟨qb, hqb, h⟩ := h
  unfold doPost at h
  simp only at h
  split at h
  · rename_i hid
    cases h
    exact .refused fun id hs => hs.simId hid
  · rename_i hid
    split at h
    · rename_i hop
      simp only [secondary, Bool.false_eq_true, if_false, Option.bind_eq_bind,
        Option.bind_eq_some_iff] at h
      obtain ⟨index, hindex, h⟩ := h
      split at h
      · rename_i hbad
        cases h
        refine .refused fun id hs => ?_
        obtain ⟨qb', hqb', hoffset, hlimit⟩ := hs.block
        obtain ⟨index', hindex', hne⟩ := hs.index
        cases hqb.symm.trans hqb'
        cases hindex.symm.trans hindex'
        have hname : getParameter r.parameters "joinRunningId" "" ≠ "" := by
          rw [hs.runningId.1]
          exact hs.runningId.2
        rcases hbad with h | h | h | h | h | h
        · exact hoffset h
        · exact hlimit h
        · exact hname h
        · exact hs.master.1 h
        · exact hs.master.2 h
        · exact hne h
      · rename_i hgood
        simp only [not_or] at hgood
        obtain ⟨hoffset, hlimit, hname, hmaster, hkey, hne⟩ := hgood
        have ht := congrArg Prod.snd (Option.some.inj h)
        rw [show ({ node with master := false } : Node) = secondary node from rfl,
          answer_settles] at ht
        cases ht
        exact served_of_start (fun _ => rfl)
          (e := .startSimJoining _ r.simId r.uinfo _ _ qb.offset qb.limit index r.found r.now) rfl
          fun hfound => ⟨hid, hop, ⟨qb, hqb, hoffset, hlimit⟩, ⟨rfl, hname⟩, ⟨hmaster, hkey⟩,
            ⟨index, hindex, hne⟩, hfound⟩
    · rename_i runningId hop _
      have ht := congrArg Prod.snd (Option.some.inj h)
      rw [answer_settles] at ht
      cases ht
      refine .ended (fun id hs => ?_) rfl
        (e := .stopSim runningId r.uinfo r.now r.written r.answered) rfl
      exact absurd (hop.symm.trans hs.operation) (by decide)
    · rename_i runningId hop _
      have ht := congrArg Prod.snd (Option.some.inj h)
      rw [answer_settles] at ht
      cases ht
      refine .ended (fun id hs => ?_) rfl
        (e := .cancelSim runningId r.uinfo r.parses r.answered) rfl
      exact absurd (hop.symm.trans hs.operation) (by decide)
    · rename_i hstart _ _
      cases h
      exact .refused fun id hs => hstart hs.operation

theorem Starting.handled {r : Request} (h : Starting s.state r id) :
    (handleRequest (secondary node) s.state r).isSome := by
  obtain ⟨qb, hqb, -⟩ := h.block
  obtain ⟨index, hindex, -⟩ := h.index
  simp only [handleRequest, hqb, doPost, h.simId, h.operation, secondary, hindex,
    Option.bind_eq_bind, Option.bind_some, if_false, Bool.false_eq_true]
  split <;> rfl

/-! ## One slot -/

/-- Each running id has a single slot. -/
def Single (s : State) : Prop :=
  ∀ id : String, id ∈ s.simulations → ∃ v, s.statuses[id]? = some v ∧ v.toList.length = 1

/-- A record is replaced: another one is under its running id after the step. -/
def Replaces (s : System) (_ : Event) (u : System) : Prop :=
  ∃ (id : String) (r r' : SimulationRecord), s.state.simulations[id]? = some r ∧
    u.state.simulations[id]? = some r' ∧ r ≠ r'

/-- No start that the handler accepts is for a running id that the node already runs. -/
def Fresh (s : System) : Event → Prop
  | .request r => ∀ id, Starting s.state r id → id ∉ s.state.simulations
  | .other _ => True

theorem length_updated (master : Bool) (now : UInt64) (v : SimStats.Slots) :
    (v.updated master now).toList.length = v.toList.length := by
  unfold SimStats.Slots.updated
  split <;> rfl

theorem length_onSlots {master : Bool} {c : SimStats.Call} (hc : fromDevice c = true)
    {v w : SimStats.Slots} (h : c.onSlots master (some v) = some w) :
    w.toList.length = v.toList.length := by
  cases c with
  | startSim | removeSim | endSim | setState => cases hc
  | connect now id =>
    cases h
    exact length_updated master now _
  | disconnect | addOutMsg | addInMsg =>
    cases h
    rfl
  | updateRemoteStatus now simStatus index =>
    cases h
    unfold SimStats.Slots.report
    split
    · rw [length_updated]
      cases index.toNat <;> simp [SimStats.Slots.set, SimStats.Slots.toList]
    · rfl

theorem single_of_removed {t t' : State} (gone : String → Prop) [DecidablePred gone]
    (h : Single t)
    (hsim : ∀ id, t'.simulations[id]? = if gone id then none else t.simulations[id]?)
    (hstat : ∀ id, t'.statuses[id]? = if gone id then none else t.statuses[id]?) :
    Single t' := by
  intro id hid
  rw [← Std.ExtTreeMap.isSome_getElem?_iff_mem] at hid
  simp only [hsim] at hid
  split at hid
  · cases hid
  · rename_i hkept
    obtain ⟨v, hv, hlength⟩ := h id (Std.ExtTreeMap.isSome_getElem?_iff_mem.mp hid)
    exact ⟨v, (hstat id).trans ((if_neg hkept).trans hv), hlength⟩

theorem single_step {e : Coordination.Event} (hk : Keyed s.state) (h : Single s.state)
    (he : e.start? = none) (hu : Coordination.step (secondary node) s e = some u) :
    Single u.state := by
  cases stepped_of_step hu with
  | started he' => cases he.symm.trans he'
  | @stopped id uinfo now written answered r hr =>
    refine single_of_removed (id = ·) h (fun id' => ?_) fun id' => ?_
    · rw [stopped_simulations]
      exact erase_simulations s.state id id'
    · exact stopped_statuses (hk.runningId id r hr)
  | @cancelled id uinfo parses answered r hr =>
    refine single_of_removed (id = ·) h (fun id' => ?_) fun id' => ?_
    · exact erase_simulations s.state id id'
    · exact cancelled_statuses (hk.runningId id r hr)
  | @sweep now later written =>
    have hswept := swept_sweep (secondary node) s.state now later written
    exact single_of_removed (· ∈ (endedBy s.state now).map (·.1)) h hswept.simulations
      hswept.statuses
  | @stats c hc =>
    intro id hid
    obtain ⟨v, hv, hlength⟩ := h id hid
    simp only [SimStats.getElem?_apply]
    split
    · rw [hv]
      have hsome : (c.onSlots (secondary node).master (some v)).isSome := isSome_onSlots hc (some v)
      obtain ⟨w, hw⟩ := Option.isSome_iff_exists.mp hsome
      exact ⟨w, hw, (length_onSlots hc hw).trans hlength⟩
    · exact ⟨v, hv, hlength⟩
  | refused | look | replace | readClock | definitions => exact h

theorem single_addSimulation_iff {t : State} (hk : Keyed t) (h : Single t) (a : RunnerArguments)
    (now : UInt64) : Single (addSimulation (secondary node) t a now) ↔
      a.runningId ∉ t.simulations := by
  have hslots := addSimulation_statuses (secondary node) t a now
  have hkeys := hk.keys a.runningId
  constructor
  · intro hsingle hmem
    have hthere : a.runningId ∈ (addSimulation (secondary node) t a now).simulations := by
      simp [addSimulation]
    obtain ⟨v, hv, hlength⟩ := hsingle _ hthere
    rw [Std.ExtTreeMap.isSome_getElem?_iff_mem.mpr hmem] at hkeys
    obtain ⟨w, hw⟩ := Option.isSome_iff_exists.mp hkeys.symm
    rw [hslots, if_pos rfl, hw] at hv
    cases hv
    simp [SimStats.Slots.start, SimStats.Slots.toList] at hlength
  · intro hnew id hid
    rw [hslots]
    split
    · rename_i heq
      have hnone : t.statuses[id]? = none := by
        refine Option.not_isSome_iff_eq_none.mp fun hsome => hnew ?_
        rw [← Std.ExtTreeMap.isSome_getElem?_iff_mem, hkeys, heq]
        exact hsome
      exact ⟨_, rfl, by rw [hnone]; rfl⟩
    · rename_i hne
      refine h id ?_
      simpa [addSimulation, Std.ExtTreeMap.mem_insert, hne] using hid

/-! ## Runs -/

theorem step_cases (hu : step node s e = some u) :
    (∃ r, e = .request r ∧ Served node s r u) ∨
    ∃ e', e = .other e' ∧ e'.start? = none ∧ Coordination.step (secondary node) s e' = some u := by
  cases e with
  | request r =>
    refine .inl ⟨r, rfl, ?_⟩
    simp only [step] at hu
    split at hu
    · rename_i reply t heq
      cases hu
      exact served heq
    · rename_i hnone
      cases hu
      refine .refused fun id hs => ?_
      have hsome : (handleRequest (secondary node) s.state r).isSome := hs.handled
      rw [hnone] at hsome
      cases hsome
  | other e' =>
    refine .inr ⟨e', rfl, ?_⟩
    simp only [step] at hu
    split at hu
    · cases hu
    · rename_i hnot
      refine ⟨?_, hu⟩
      cases e' <;> first | rfl | exact absurd rfl hnot

theorem keyed_joins (s : System) (e : Event) (u : System) (h : Keyed s.state)
    (hu : step node s e = some u) : Keyed u.state := by
  rcases step_cases hu with ⟨r, rfl, hserved⟩ | ⟨e', rfl, -, hstep⟩
  · cases hserved with
    | started _ hstep | ended _ _ hstep => exact keyed_step h hstep
    | refused => exact h
  · exact keyed_step h hstep

theorem single_iff_fresh (hk : Keyed s.state) (h : Single s.state) (hu : step node s e = some u) :
    Single u.state ↔ Fresh s e := by
  rcases step_cases hu with ⟨r, rfl, hserved⟩ | ⟨e', rfl, he, hstep⟩
  · cases hserved with
    | @started e a hstarting hstep =>
      refine (single_addSimulation_iff hk h a r.now).trans ⟨fun hnew id hs => ?_, fun hfresh => ?_⟩
      · rw [← hs.runningId.1, hstarting.runningId.1]
        exact hnew
      · exact hfresh a.runningId hstarting
    | ended hnot he hstep =>
      exact iff_of_true (single_step hk h he hstep) fun id hs => absurd hs (hnot id)
    | refused hnot => exact iff_of_true h fun id hs => absurd hs (hnot id)
  · exact iff_of_true (single_step hk h he hstep) trivial

theorem not_replaces (hfresh : Fresh s e) (hu : step node s e = some u) : ¬ Replaces s e u := by
  rintro ⟨id, r, r', hr, hr', hne⟩
  have hkept : Shrinks s.state u.state → False := fun hshrinks => by
    cases hr.symm.trans (hshrinks id r' hr')
    exact hne rfl
  rcases step_cases hu with ⟨q, rfl, hserved⟩ | ⟨e', rfl, he, hstep⟩
  · cases hserved with
    | @started e a hstarting hstep =>
      have hnew := hfresh a.runningId hstarting
      rw [addSimulation_simulations] at hr'
      split at hr'
      · rename_i hid
        subst hid
        exact hnew (Std.ExtTreeMap.isSome_getElem?_iff_mem.mp (Option.isSome_of_eq_some hr))
      · cases hr.symm.trans hr'
        exact hne rfl
    | ended _ he hstep => exact hkept (shrinks_of_step he hstep)
    | refused => exact hkept .refl
  · exact hkept (shrinks_of_step he hstep)

/-- A secondary keeps its records and its single slots exactly as long as it accepts no start of
a running id that it already runs. -/
theorem single_iff (node : Node) (es : List Event) :
    (¬ Happens (step node) Replaces {} es ∧
      Always (step node) (fun s : System => Single s.state) {} es) ↔
      Steps (step node) Fresh {} es := by
  have hempty : Single {} := fun id hid => by
    simp at hid
  have hsingle : Always (step node) (fun s : System => Single s.state) {} es ↔
      Steps (step node) Fresh {} es := by
    refine always_iff_steps (J := fun s : System => Keyed s.state)
      (I := fun s : System => Single s.state) (keyed_init []) hempty keyed_joins (fun _ h => h)
      ?_ ?_ es
    · exact fun s e u hk h hfresh hu => (single_iff_fresh hk h hu).mpr hfresh
    · exact fun s e u hk h hu hsingle => (single_iff_fresh hk h hu).mp hsingle
  rw [hsingle, and_iff_right_iff_imp]
  rintro hfresh ⟨p, e, t, u, hp, ht, hu, hreplaces⟩
  exact not_replaces (hfresh p e hp t u ht hu) hu hreplaces

/-- A master that asks twice, for other devices the second time. -/
def joinTwice : List Event :=
  let request (offset : String) : Request :=
    { simId := "d", parameters := [("operation", "start"), ("joinRunningId", "run"),
        ("masterURI", "u"), ("accessKey", "k"), ("offset", offset), ("limit", "5"),
        ("index", "1")] }
  [.other (.definitions (SimulationDB.empty.put { id := "d" })), .request (request "5"),
   .request (request "10")]

theorem joined_twice : ¬ ∀ es, ¬ Happens (step {}) Replaces {} es ∧
    Always (step {}) (fun s => Single s.state) {} es := by
  intro h
  have hlast := (h joinTwice).2.here rfl
  obtain ⟨v, hv, hlength⟩ := hlast "run" (Std.ExtTreeMap.isSome_getElem?_iff_mem.mp rfl)
  cases hv
  exact absurd hlength (by decide)

end Owls.Joins
