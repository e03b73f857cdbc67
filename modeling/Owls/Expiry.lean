import Owls.Keys

/-!
# The sweep among the starts

Both `StartSim` in their three steps (the record, the runner, the statistics), among the steps
of the worker thread. Only the `StartSim` of a master holds the mutex.
-/

open Machine

namespace Owls.Expiry

open SimulationCoordinator

/-! ## The machine -/

/-- Where a thread is in its call of `StartSim`. -/
inductive Starter where
  | idle
  | inserted (joining : Bool) (r : RunnerArguments)
  | started (joining : Bool) (r : RunnerArguments)

inductive Worker where
  | asleep
  /-- It has read the clock, and waits for the mutex. -/
  | ready (now : UInt64)
  /-- It holds the mutex, and is past the record at `last`. -/
  | sweeping (now : UInt64) (last : Option String)

inductive Holder where
  | worker
  | starter (k : Nat)

structure System where
  state : State := {}
  /-- The runners between their `Start` and their `Stop`. -/
  runners : String → Bool := fun _ => false
  starters : Nat → Starter := fun _ => .idle
  worker : Worker := .asleep
  mutex : Option Holder := none
  clock : UInt64 := 0

inductive Event where
  | startSim (k : Nat) (uuid simId : String) (uinfo : UserInfo) (found : Bool)
  | startSimJoining (k : Nat) (runningId simId : String) (uinfo : UserInfo)
      (masterURI accessKey : String) (offset limit index : UInt64) (found : Bool)
  | startRunner (k : Nat)
  | recordStart (k : Nat)
  /-- The top of the loop, up to `Now`. -/
  | readClock (found : MicroServiceMetaVec)
  | lock
  | visit (id : String) (written : Bool)
  | unlock
  | tick (now : UInt64)
  | definitions (db : SimulationDB)

def insertRecord (s : State) (r : RunnerArguments) : State :=
  { s with lookForServices := false, simulations := s.simulations.insert r.runningId (.new r) }

def after (last : Option String) (id : String) : Bool :=
  match last with
  | none => true
  | some l => l < id

/-- The iterator of the sweep goes through the map in the order of its keys. -/
def isNext (s : State) (last : Option String) (id : String) : Bool :=
  after last id && s.simulations.toList.all fun p => !after last p.1 || id ≤ p.1

def isLast (s : State) (last : Option String) : Bool :=
  s.simulations.toList.all fun p => !after last p.1

variable (node : Node)

def recordStart (s : State) (r : RunnerArguments) (now : UInt64) : State :=
  { s with statuses := SimStats.startSim node.master now s.services s.statuses r.runningId r.details
                         r.uinfo }

/-- The first step of either `StartSim`, up to the record. -/
def System.begin (s : System) (k : Nat) (joining : Bool) (simId : String) (found : Bool)
    (r : SimulationDetails → RunnerArguments) : System :=
  match (if found then s.state.simulationDB.getRecord simId else none) with
  | none => s
  | some newSim =>
    { s with
      state := insertRecord s.state (r newSim)
      starters := Function.update s.starters k (.inserted joining (r newSim))
      mutex := if joining then s.mutex else some (.starter k) }

def step (s : System) : Event → Option System
  | .startSim k uuid simId uinfo found =>
    match s.starters k, s.mutex with
    | .idle, none =>
      some (s.begin k false simId found fun details =>
        { details, runningId := uuid, uinfo, masterURI := node.privateEndPoint,
          accessKey := node.accessKey })
    | _, _ => none
  | .startSimJoining k runningId simId uinfo masterURI accessKey offset limit index found =>
    match s.starters k with
    | .idle =>
      some (s.begin k true simId found fun details =>
        { details, runningId, uinfo, masterURI, accessKey, offset, limit, index })
    | _ => none
  | .startRunner k =>
    match s.starters k with
    | .inserted joining r =>
      -- The record may be gone by now, and `Simulations_[RunningId]` is then a null pointer.
      if r.runningId ∈ s.state.simulations then
        some { s with
          runners := Function.update s.runners r.runningId true
          starters := Function.update s.starters k (.started joining r) }
      else none
    | _ => none
  | .recordStart k =>
    match s.starters k with
    | .started joining r =>
      some { s with
        state := recordStart node s.state r s.clock
        starters := Function.update s.starters k .idle
        mutex := if joining then s.mutex else none }
    | _ => none
  | .readClock found =>
    match s.worker with
    | .asleep =>
      some { s with state := refreshServices node s.state found, worker := .ready s.clock }
    | _ => none
  | .lock =>
    match s.worker, s.mutex with
    | .ready now, none => some { s with worker := .sweeping now none, mutex := some .worker }
    | _, _ => none
  | .visit id written =>
    match s.worker, s.state.simulations[id]? with
    | .sweeping now last, some r =>
      if isNext s.state last id then
        some { s with
          state := sweepOne node now s.clock written s.state (id, r)
          runners := if expired s.state now id r then Function.update s.runners id false
                     else s.runners
          worker := .sweeping now (some id) }
      else none
    | _, _ => none
  | .unlock =>
    match s.worker with
    | .sweeping _ last =>
      if isLast s.state last then
        some { s with
          state := if s.state.simulations.isEmpty then { s.state with lookForServices := true }
                   else s.state
          worker := .asleep
          mutex := none }
      else none
    | _ => none
  | .tick now => if s.clock ≤ now then some { s with clock := now } else none
  | .definitions db => some { s with state := { s.state with simulationDB := db } }

theorem startSim_alone {node : Node} {s : System} {k : Nat} {t : State} {uuid simId : String}
    {uinfo : UserInfo} {found : Bool} (hidle : s.starters k = .idle) (hfree : s.mutex = none)
    (ht : startSim node s.state uuid simId uinfo found s.clock = .ok t) :
    ∃ u, run (step node) s [.startSim k uuid simId uinfo found, .startRunner k, .recordStart k] =
      some u ∧ u.state = t ∧ u.mutex = none := by
  unfold startSim startRunner at ht
  split at ht <;> cases ht
  rename_i newSim hget
  simp [step, hidle, hfree, System.begin, hget, insertRecord]
  rfl

theorem startSimJoining_alone {node : Node} {s : System} {k : Nat} {t : State}
    {runningId simId : String} {uinfo : UserInfo} {masterURI accessKey : String}
    {offset limit index : UInt64} {found : Bool} (hidle : s.starters k = .idle)
    (ht : startSimJoining node s.state runningId simId uinfo masterURI accessKey offset limit index
      found s.clock = .ok t) :
    ∃ u, run (step node) s [.startSimJoining k runningId simId uinfo masterURI accessKey offset
      limit index found, .startRunner k, .recordStart k] = some u ∧ u.state = t ∧
      u.mutex = s.mutex := by
  unfold startSimJoining startRunner at ht
  split at ht <;> cases ht
  rename_i newSim hget
  simp [step, hidle, System.begin, hget, insertRecord]
  rfl

/-! ## What a step can do -/

/-- A visit of the sweep, from a state where the iterator stands before `id`. -/
structure Visits (s : System) (e : Event) (now : UInt64) (id : String) (r : SimulationRecord) :
    Prop where
  event : ∃ written, e = .visit id written
  sweeping : ∃ last, s.worker = .sweeping now last ∧ isNext s.state last id = true
  record : s.state.simulations[id]? = some r

/-- `r` was the record at `id`, and is gone. -/
def Gone (s u : System) (id : String) (r : SimulationRecord) : Prop :=
  s.state.simulations[id]? = some r ∧ u.state.simulations[id]? = none

variable {node} {s u : System} {e : Event} {id : String} {r : SimulationRecord}

inductive Stepped (node : Node) (s : System) : Event → System → Prop where
  | began {e : Event} {k : Nat} (joining : Bool) (simId : String) (found : Bool)
    (args : SimulationDetails → RunnerArguments) (hidle : s.starters k = .idle)
    (hfree : joining = false → s.mutex = none) (he : ∀ id written, e ≠ .visit id written) :
    Stepped node s e (s.begin k joining simId found args)
  | runner {k : Nat} {joining : Bool} {args : RunnerArguments}
    (hk : s.starters k = .inserted joining args) :
    Stepped node s (.startRunner k)
      { s with runners := Function.update s.runners args.runningId true
               starters := Function.update s.starters k (.started joining args) }
  | recorded {k : Nat} {joining : Bool} {args : RunnerArguments}
    (hk : s.starters k = .started joining args) :
    Stepped node s (.recordStart k)
      { s with state := recordStart node s.state args s.clock
               starters := Function.update s.starters k .idle
               mutex := if joining then s.mutex else none }
  | readClock (found : MicroServiceMetaVec) :
    Stepped node s (.readClock found)
      { s with state := refreshServices node s.state found, worker := .ready s.clock }
  | locked {now : UInt64} (hw : s.worker = .ready now) (hfree : s.mutex = none) :
    Stepped node s .lock { s with worker := .sweeping now none, mutex := some .worker }
  | visited {id : String} {now : UInt64} {last : Option String} {r : SimulationRecord}
    (written : Bool) (hw : s.worker = .sweeping now last)
    (hr : s.state.simulations[id]? = some r) (hnext : isNext s.state last id = true) :
    Stepped node s (.visit id written)
      { s with state := sweepOne node now s.clock written s.state (id, r)
               runners := if expired s.state now id r then Function.update s.runners id false
                          else s.runners
               worker := .sweeping now (some id) }
  | unlocked {now : UInt64} {last : Option String} {t : State}
    (hw : s.worker = .sweeping now last) (hsim : t.simulations = s.state.simulations)
    (hstat : t.statuses = s.state.statuses) :
    Stepped node s .unlock { s with state := t, worker := .asleep, mutex := none }
  | ticked {now : UInt64} (hle : s.clock ≤ now) : Stepped node s (.tick now) { s with clock := now }
  | definitions (db : SimulationDB) :
    Stepped node s (.definitions db) { s with state := { s.state with simulationDB := db } }

theorem stepped_of_step (hu : step node s e = some u) : Stepped node s e u := by
  cases e with
  | startSim k uuid simId uinfo found =>
    simp only [step] at hu
    split at hu <;> cases hu
    rename_i hidle hfree
    exact .began false simId found _ hidle (fun _ => hfree) (by simp)
  | startSimJoining k runningId simId uinfo masterURI accessKey offset limit index found =>
    simp only [step] at hu
    split at hu <;> cases hu
    rename_i hidle
    exact .began true simId found _ hidle (by simp) (by simp)
  | startRunner k =>
    simp only [step] at hu
    split at hu <;> try cases hu
    rename_i hk
    split at hu <;> cases hu
    exact .runner hk
  | recordStart k =>
    simp only [step] at hu
    split at hu <;> cases hu
    exact .recorded ‹_›
  | readClock found =>
    simp only [step] at hu
    split at hu <;> cases hu
    exact .readClock found
  | lock =>
    simp only [step] at hu
    split at hu <;> cases hu
    rename_i hw hfree
    exact .locked hw hfree
  | visit id written =>
    simp only [step] at hu
    split at hu <;> try cases hu
    rename_i hw hr
    split at hu <;> cases hu
    exact .visited written hw hr ‹_›
  | unlock =>
    simp only [step] at hu
    split at hu <;> try cases hu
    rename_i hw
    split at hu <;> cases hu
    refine .unlocked hw ?_ ?_ <;> split <;> rfl
  | tick now =>
    simp only [step] at hu
    split at hu <;> cases hu
    exact .ticked ‹_›
  | definitions db =>
    cases hu
    exact .definitions db

theorem refreshServices_frame (node : Node) (s : State) (found : MicroServiceMetaVec) :
    (refreshServices node s found).simulations = s.simulations ∧
      (refreshServices node s found).statuses = s.statuses := by
  unfold refreshServices
  split <;> exact ⟨rfl, rfl⟩

theorem insertRecord_keeps (s : State) (args : RunnerArguments) (h : s.simulations[id]? = some r) :
    ((insertRecord s args).simulations[id]?).isSome := by
  rw [insertRecord, Std.ExtTreeMap.getElem?_insert]
  split
  · rfl
  · rw [h]
    rfl

theorem begin_keeps (s : System) (k : Nat) (joining : Bool) (simId : String) (found : Bool)
    (args : SimulationDetails → RunnerArguments) (h : s.state.simulations[id]? = some r) :
    ((s.begin k joining simId found args).state.simulations[id]?).isSome := by
  unfold System.begin
  split
  · rw [h]
    rfl
  · exact insertRecord_keeps s.state _ h

theorem swept_visit (t : State) (now later : UInt64) (written : Bool) (id : String)
    (r : SimulationRecord) (id' : String) :
    let u := sweepOne node now later written t (id, r)
    (u.simulations[id']? =
      if expired t now id r ∧ id' = id then none else t.simulations[id']?) ∧
    u.statuses[id']? = if expired t now id r ∧ id' = id then none else t.statuses[id']? := by
  intro u
  by_cases hexp : expired t now id r = true
  · have hswept := Coordination.swept_sweepOne (p := (id, r)) node later written hexp
    simp only [hexp, true_and]
    refine ⟨(hswept.simulations id').trans ?_, (hswept.statuses id').trans ?_⟩ <;> simp
  · have hsame : u = t := by simp [u, sweepOne, hexp]
    simp [hsame, hexp]

theorem step_keeps (hu : step node s e = some u) (he : ∀ written, e ≠ .visit id written)
    (hr : s.state.simulations[id]? = some r) : (u.state.simulations[id]?).isSome := by
  have hkept := Option.isSome_of_eq_some hr
  cases stepped_of_step hu with
  | began joining simId found args => exact begin_keeps s _ joining simId found args hr
  | readClock found =>
    simp only [(refreshServices_frame node s.state found).1]
    exact hkept
  | @visited id' now last r' written =>
    have hne : id ≠ id' := fun h => he written (h ▸ rfl)
    rw [(swept_visit ..).1, if_neg fun h => hne h.2]
    exact hkept
  | unlocked _ hsim =>
    simp only [hsim]
    exact hkept
  | runner | recorded | locked | ticked | definitions => exact hkept

theorem gone_iff (hu : step node s e = some u) : Gone s u id r ↔
    ∃ now, Visits s e now id r ∧ expired s.state now id r = true := by
  by_cases he : ∃ written, e = .visit id written
  · obtain ⟨written, rfl⟩ := he
    cases stepped_of_step hu with
    | began _ _ _ _ _ _ hne => exact absurd rfl (hne id written)
    | @visited _ now last r' _ hw hr' hnext =>
      constructor
      · rintro ⟨hr, hnone⟩
        cases hr'.symm.trans hr
        rw [(swept_visit ..).1] at hnone
        split at hnone
        · rename_i hexp
          exact ⟨now, ⟨⟨written, rfl⟩, ⟨last, hw, hnext⟩, hr⟩, hexp.1⟩
        · cases hr.symm.trans hnone
      · rintro ⟨now', ⟨-, ⟨_, hw', -⟩, hr⟩, hexp⟩
        cases hw.symm.trans hw'
        cases hr'.symm.trans hr
        exact ⟨hr, (swept_visit ..).1.trans (if_pos ⟨hexp, rfl⟩)⟩
  · constructor
    · rintro ⟨hr, hnone⟩
      have hkept := step_keeps hu (fun written h => he ⟨written, h⟩) hr
      simp [hnone] at hkept
    · rintro ⟨now, hvisit, -⟩
      exact absurd hvisit.event he

/-! ## What the clock shows -/

/-- The sweep works with a clock that it has read before. -/
def Behind (s : System) : Prop :=
  ∀ now, s.worker = .ready now ∨ (∃ last, s.worker = .sweeping now last) → now ≤ s.clock

theorem behind_step (s : System) (e : Event) (u : System) (h : Behind s)
    (hu : step node s e = some u) : Behind u := by
  cases stepped_of_step hu with
  | began =>
    unfold System.begin
    split <;> exact h
  | runner | recorded | definitions => exact h
  | readClock found =>
    rintro now (hw | ⟨last, hw⟩) <;> cases hw
    exact UInt64.le_refl _
  | locked hw =>
    rintro now' (hw' | ⟨last, hw'⟩) <;> cases hw'
    exact h _ (.inl hw)
  | visited _ hw =>
    rintro now' (hw' | ⟨last', hw'⟩) <;> cases hw'
    exact h _ (.inr ⟨_, hw⟩)
  | unlocked => rintro now (hw | ⟨last, hw⟩) <;> cases hw
  | ticked hle => exact fun now' hw => UInt64.le_trans (h now' hw) hle

/-- The sweep ends a simulation only when more than its length has passed since its start. -/
def Due (node : Node) (s : System) (e : Event) : Prop :=
  ∀ u id r, step node s e = some u → Gone s u id r →
    r.details.simulationLength ≠ 0 ∧ ∃ v, s.state.statuses[id]? = some v ∧
      v.first.startTime.toNat + r.details.simulationLength.toNat < s.clock.toNat

/-- The start time that a visit compares with is recorded, and is not later than `Now`. Otherwise
the unsigned difference must happen to fit in the length, or the time be over by then. -/
def Timely (s : System) (e : Event) : Prop :=
  ∀ now id r, Visits s e now id r → r.details.simulationLength ≠ 0 →
    match s.state.statuses[id]? with
    | none => now ≤ r.details.simulationLength
    | some v => v.first.startTime ≤ now ∨
        now - v.first.startTime ≤ r.details.simulationLength ∨
        v.first.startTime.toNat + r.details.simulationLength.toNat < s.clock.toNat

theorem expired_iff (t : State) (now : UInt64) (id : String) (r : SimulationRecord) :
    expired t now id r = true ↔ r.details.simulationLength ≠ 0 ∧
      r.details.simulationLength < now - SimStats.getStartTime t.statuses id := by
  simp [expired]

theorem Visits.enabled {now : UInt64} (h : Visits s e now id r) : ∃ u, step node s e = some u := by
  obtain ⟨⟨written, rfl⟩, ⟨last, hw, hnext⟩, hr⟩ := h
  simp [step, hw, hr, hnext]

theorem Visits.behind {now : UInt64} (h : Visits s e now id r) (hs : Behind s) : now ≤ s.clock := by
  obtain ⟨last, hw, -⟩ := h.sweeping
  exact hs now (.inr ⟨last, hw⟩)

theorem due_iff_timely (hs : Behind s) : Due node s e ↔ Timely s e := by
  constructor
  · intro hdue now id r hv hlen
    obtain ⟨u, hu⟩ : ∃ u, step node s _ = some u := hv.enabled
    have hends (hlt : r.details.simulationLength <
        now - SimStats.getStartTime s.state.statuses id) :=
      (hdue u id r hu ((gone_iff hu).mpr ⟨now, hv, (expired_iff ..).mpr ⟨hlen, hlt⟩⟩)).2
    cases hst : s.state.statuses[id]? with
    | none =>
      simp only
      refine UInt64.not_lt.mp fun hlt => ?_
      obtain ⟨v, hv', -⟩ := hends (by simpa [SimStats.getStartTime, hst] using hlt)
      cases hst.symm.trans hv'
    | some v =>
      simp only
      refine .inr ((UInt64.le_or_lt _ _).imp_right fun hlt => ?_)
      obtain ⟨v', hv', hpast⟩ := hends (by simpa [SimStats.getStartTime, hst] using hlt)
      cases hst.symm.trans hv'
      exact hpast
  · intro htimely u id r hu hgone
    obtain ⟨now, hv, hexp⟩ := (gone_iff hu).mp hgone
    obtain ⟨hlen, hlt⟩ := (expired_iff ..).mp hexp
    have hstart := htimely now id r hv hlen
    refine ⟨hlen, ?_⟩
    cases hst : s.state.statuses[id]? with
    | none =>
      simp only [hst] at hstart
      simp only [SimStats.getStartTime, hst, UInt64.sub_zero] at hlt
      exact absurd hstart (UInt64.not_le.mpr hlt)
    | some v =>
      simp only [hst] at hstart
      simp only [SimStats.getStartTime, hst] at hlt
      refine ⟨v, rfl, ?_⟩
      rcases hstart with hle | hle | hpast
      · have hclock := UInt64.le_iff_toNat_le.mp (hv.behind hs)
        have hsub := UInt64.toNat_sub_of_le _ _ hle
        have hlt := UInt64.lt_iff_toNat_lt.mp hlt
        omega
      · exact absurd hle (UInt64.not_le.mpr hlt)
      · exact hpast

/-- The sweep ends only what has run for its length exactly as long as every start it looks at
is recorded, and recorded before it read the clock. -/
theorem due_iff (node : Node) (es : List Event) :
    Steps (step node) (Due node) {} es ↔ Steps (step node) Timely {} es := by
  refine steps_congr_of (J := Behind) ?_ behind_step (fun _ _ hs => due_iff_timely hs) es
  rintro now (hw | ⟨last, hw⟩) <;> cases hw

def joinOne : List Event :=
  [.definitions (SimulationDB.empty.put { id := "d" }), .tick 4000,
   .startSimJoining 0 "run" "d" {} "" "" 0 5 1 true, .readClock .empty, .lock]

def startLate : List Event :=
  [.definitions (SimulationDB.empty.put { id := "d" }), .tick 4000, .readClock .empty, .tick 4001,
   .startSim 0 "run" "d" {} true, .startRunner 0, .recordStart 0, .lock]

/-- A secondary's simulation is swept before its start is recorded, and a master's when its start
comes between the clock of the sweep and its lock. -/
theorem swept_too_early :
    (¬ ∀ es, Steps (step { master := false }) (Due { master := false }) {} es) ∧
    ¬ ∀ es, Steps (step {}) (Due {}) {} es := by
  constructor
  · intro h
    have hlast := (h (joinOne ++ [.visit "run" true])).last rfl rfl
    obtain ⟨-, v, hv, -⟩ := hlast _ "run" _ rfl ⟨rfl, rfl⟩
    cases hv
  · intro h
    have hlast := (h (startLate ++ [.visit "run" true])).last rfl rfl
    obtain ⟨-, v, hv, hpast⟩ := hlast _ "run" _ rfl ⟨rfl, rfl⟩
    cases hv
    exact absurd hpast (by decide)

/-! ## Whose statistics are missing -/

def Starter.pending : Starter → Option (Bool × RunnerArguments)
  | .idle => none
  | .inserted joining r | .started joining r => some (joining, r)

/-- Who holds the mutex, and whose record has no statistics yet. -/
structure Held (s : System) : Prop where
  sweeping : ∀ now last, s.worker = .sweeping now last → s.mutex = some .worker
  starting : ∀ k r, (s.starters k).pending = some (false, r) → s.mutex = some (.starter k)
  missing : ∀ id r, s.state.simulations[id]? = some r → s.state.statuses[id]? = none →
    ∃ k joining args, (s.starters k).pending = some (joining, args) ∧ args.runningId = id

theorem Held.of_same (h : Held s) (hw : ∀ now last, u.worker = .sweeping now last →
      ∃ now last, s.worker = .sweeping now last)
    (hstarters : ∀ k, (u.starters k).pending = (s.starters k).pending) (hmutex : u.mutex = s.mutex)
    (hsim : ∀ id : String, (u.state.simulations[id]?).isSome → (s.state.simulations[id]?).isSome)
    (hstat : ∀ id : String, (u.state.simulations[id]?).isSome → u.state.statuses[id]? = none →
      s.state.statuses[id]? = none) : Held u where
  sweeping now last hw' := by
    obtain ⟨now, last, hw'⟩ := hw now last hw'
    exact hmutex.trans (h.sweeping now last hw')
  starting k r hk := hmutex.trans (h.starting k r ((hstarters k).symm.trans hk))
  missing id r hr hnone := by
    have hsome := Option.isSome_of_eq_some hr
    obtain ⟨r', hr'⟩ := Option.isSome_iff_exists.mp (hsim id hsome)
    obtain ⟨k, joining, args, hk, hid⟩ := h.missing id r' hr' (hstat id hsome hnone)
    exact ⟨k, joining, args, (hstarters k).trans hk, hid⟩

theorem Held.begin (h : Held s) {k : Nat} (joining : Bool) (hidle : s.starters k = .idle)
    (hfree : joining = false → s.mutex = none) (simId : String) (found : Bool)
    (args : SimulationDetails → RunnerArguments) : Held (s.begin k joining simId found args) := by
  unfold System.begin
  split
  · exact h
  · rename_i newSim hget
    have hmutex (hj : joining = false) (m : Holder) : s.mutex ≠ some m := by simp [hfree hj]
    constructor
    · intro now last hw
      have hworker := h.sweeping now last hw
      cases joining with
      | true => exact hworker
      | false => exact absurd hworker (hmutex rfl _)
    · intro k' r hk'
      by_cases hk : k' = k
      · subst hk
        obtain ⟨rfl, -⟩ : joining = false ∧ args newSim = r := by
          simpa [Starter.pending] using hk'
        rfl
      · have hheld := h.starting k' r (by simpa [hk] using hk')
        cases joining with
        | true => exact hheld
        | false => exact absurd hheld (hmutex rfl _)
    · intro id r hr hnone
      by_cases hid : (args newSim).runningId = id
      · exact ⟨k, joining, args newSim, by simp [Starter.pending], hid⟩
      · have hr : s.state.simulations[id]? = some r := by
          simpa [insertRecord, Std.ExtTreeMap.getElem?_insert, hid] using hr
        obtain ⟨k', j, other, hk', hid'⟩ := h.missing id r hr hnone
        have hk : k' ≠ k := fun heq => by simp [heq, hidle, Starter.pending] at hk'
        exact ⟨k', j, other, by simpa [hk] using hk', hid'⟩

theorem Held.recorded (h : Held s) {k : Nat} {joining : Bool} {args : RunnerArguments}
    (hk : s.starters k = .started joining args) :
    Held { s with state := recordStart node s.state args s.clock
                  starters := Function.update s.starters k .idle
                  mutex := if joining then s.mutex else none } := by
  have hpending : (s.starters k).pending = some (joining, args) := by rw [hk]; rfl
  constructor
  · intro now last hw
    have hworker := h.sweeping now last hw
    cases joining with
    | true => exact hworker
    | false => cases hworker.symm.trans (h.starting k args hpending)
  · intro k' r hk'
    by_cases heq : k' = k
    · simp [heq, Starter.pending] at hk'
    · have hheld := h.starting k' r (by simpa [heq] using hk')
      cases joining with
      | true => exact hheld
      | false => cases hheld.symm.trans (h.starting k args hpending); exact absurd rfl heq
  · intro id r hr hnone
    have hstat := Coordination.addSimulation_statuses node s.state args s.clock id
    by_cases hid : args.runningId = id
    · rw [if_pos hid] at hstat
      cases hstat.symm.trans hnone
    · rw [if_neg hid] at hstat
      obtain ⟨k', j, other, hk', hid'⟩ := h.missing id r hr (hstat.symm.trans hnone)
      have hne : k' ≠ k := by
        rintro rfl
        cases hpending.symm.trans hk'
        exact hid hid'
      exact ⟨k', j, other, by simpa [hne] using hk', hid'⟩

theorem held_step (s : System) (e : Event) (u : System) (h : Held s)
    (hu : step node s e = some u) : Held u := by
  cases stepped_of_step hu with
  | began joining simId found args hidle hfree => exact h.begin joining hidle hfree simId found args
  | @runner k joining args hk =>
    refine h.of_same (fun now last hw => ⟨now, last, hw⟩) (fun k' => ?_) rfl (fun _ => id)
      fun _ _ => id
    by_cases heq : k' = k
    · simp [heq, hk, Starter.pending]
    · simp [heq]
  | recorded hk => exact h.recorded hk
  | readClock found =>
    obtain ⟨hsim, hstat⟩ := refreshServices_frame node s.state found
    refine h.of_same nofun (fun _ => rfl) rfl (fun id hid => ?_) fun id _ hid => ?_
    · simpa only [hsim] using hid
    · simpa only [hstat] using hid
  | locked hw hfree =>
    refine ⟨fun _ _ _ => rfl, fun k r hk => ?_, h.missing⟩
    cases hfree.symm.trans (h.starting k r hk)
  | @visited id now last r written hw =>
    refine h.of_same (fun _ _ _ => ⟨now, last, hw⟩) (fun _ => rfl) rfl (fun id' => ?_) fun id' => ?_
    · rw [(swept_visit ..).1]
      split
      · nofun
      · exact fun h => h
    · rw [(swept_visit ..).1, (swept_visit ..).2]
      split
      · nofun
      · exact fun _ h => h
  | @unlocked now last t hw hsim hstat =>
    refine ⟨nofun, fun k r hk => ?_, ?_⟩
    · cases (h.sweeping now last hw).symm.trans (h.starting k r hk)
    · simp only [hsim, hstat]
      exact h.missing
  | ticked | definitions => exact ⟨h.sweeping, h.starting, h.missing⟩

theorem missing_while_joining (node : Node) (es : List Event) :
    Always (step node) (fun s => ∀ now last id r, s.worker = .sweeping now last →
      s.state.simulations[id]? = some r → s.state.statuses[id]? = none →
      ∃ k args, (s.starters k).pending = some (true, args) ∧ args.runningId = id) {} es := by
  have hstart : Held {} := by
    refine ⟨nofun, nofun, fun id r hr => ?_⟩
    cases hr.symm.trans Std.ExtTreeMap.getElem?_empty
  intro p hp t ht now last id r hw hr hnone
  have hheld : Held t := always_of_step hstart held_step es p hp t ht
  obtain ⟨k, joining, args, hk, hid⟩ := hheld.missing id r hr hnone
  cases joining with
  | true => exact ⟨k, args, hk, hid⟩
  | false => cases (hheld.sweeping now last hw).symm.trans (hheld.starting k args hk)

end Owls.Expiry
