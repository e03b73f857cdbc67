import Owls.Agenda
import Owls.Workers

/-!
# The scheduler of the simulations

`Bosma::Scheduler`: its agenda, and the thread pool that runs the loop and the tasks.
-/

open Machine

namespace Owls.Bosma

open ThreadPool (Pool Worker t0 t1)

variable {n : Nat}

/-- What the pool runs. -/
inductive Job where
  | loop
  | task (t : Task)
  /-- A task that is added again once it is completed. -/
  | again (t : Task)

def Task.job (t : Task) : Job := if t.interval then .again t else .task t

def Job.isLoop : Job → Bool
  | .loop => true
  | .task _ | .again _ => false

/-- It ends by a step of its own, and not whenever its function returns. -/
def Job.stays : Job → Bool
  | .loop | .again _ => true
  | .task _ => false

/-- What the loop, on thread `i`, does to the pool in its next step. -/
def Agenda.request (a : Agenda n) (i : Fin n) (woken : Option (Fin n)) :
    Option (ThreadPool.Event Job n) :=
  match a.loop with
  | .checking => if a.life = .alive then none else some (.work i)
  | .pushing _ ((_, t) :: _) _ => some (.push (some i) t.job)
  | .notifying _ _ _ _ => some (.notify (some i) woken)
  | .finding | .sleeping _ | .managing | .pushing _ [] _ | .returned => none

/-! ## The scheduler -/

structure Scheduler (n : Nat) where
  agenda : Agenda n := {}
  threads : Pool Job n := {}

inductive Event (n : Nat) where
  /-- The constructor pushes the loop. -/
  | construct
  /-- `in`, by another thread or by a task. -/
  | add (time : Nat) (t : Task)
  /-- An interval task is completed, and is added again. -/
  | again (i : Fin n) (now : Nat)
  | interrupt
  | loop (i : Fin n) (now : Nat) (woken : Option (Fin n))
  /-- The next step of a thread outside of the loop. -/
  | work (i : Fin n)
  | notify (woken : Option (Fin n))
  | spurious (i : Fin n)
  | close
  | leave
  /-- The destructor of the pool. -/
  | stop
  | notifyAll

variable (s : Scheduler n)

def Scheduler.constructed : Bool := !s.threads.pushed.isEmpty && s.threads.entering == 0

def Scheduler.move (m : Move n) : Option (Scheduler n) :=
  (s.agenda.step m).map fun agenda => { s with agenda }

def Scheduler.pool (e : ThreadPool.Event Job n) : Option (Scheduler n) :=
  (ThreadPool.step s.threads e).map fun threads => { s with threads }

def step : Event n → Option (Scheduler n)
  | .construct => if s.threads.pushed.isEmpty then s.pool (.push none .loop) else none
  | .add time t => if s.constructed then s.move (.add time t none) else none
  | .again i now =>
    match s.threads.workers i with
    | .running (.again t) => s.move (.add (t.getNewTime now) t (some i))
    | .running .loop | .running (.task _) | .popping | .pushing _ | .testing | .tested | .waiting
    | .ended => none
  | .interrupt =>
    match s.agenda.lock with
    | .adding none => s.move .interrupt
    | .adding (some i) => (s.move .interrupt).bind fun s => s.pool (.work i)
    | .free | .managing => none
  | .loop i now woken =>
    if (s.threads.workers i).holds Job.isLoop then
      match s.agenda.request i woken with
      | none => s.move (.loop now)
      | some e => (s.move (.loop now)).bind fun s => s.pool e
    else none
  | .work i => if (s.threads.workers i).holds Job.stays then none else s.pool (.work i)
  | .notify woken => s.pool (.notify none woken)
  | .spurious i => s.pool (.spurious i)
  | .close => if s.constructed then s.move .close else none
  | .leave => s.move .leave
  | .stop => if s.agenda.life = .interrupted then s.pool .done else none
  | .notifyAll => s.pool .notifyAll

/-! ## A step of the scheduler -/

variable {a b : Agenda n} {m : Move n} {now : Nat} {s s' : Scheduler n} {e : Event n} {i k : Fin n}

theorem move_some (h : s.move m = some s') :
    s.agenda.step m = some s'.agenda ∧ s'.threads = s.threads := by
  obtain ⟨agenda, hagenda, rfl⟩ := Option.map_eq_some_iff.mp h
  exact ⟨hagenda, rfl⟩

theorem pool_some {pe : ThreadPool.Event Job n} (h : s.pool pe = some s') :
    ThreadPool.step s.threads pe = some s'.threads ∧ s'.agenda = s.agenda := by
  obtain ⟨threads, hthreads, rfl⟩ := Option.map_eq_some_iff.mp h
  exact ⟨hthreads, rfl⟩

/-- What a step asks of the agenda; a task is added by `add` or by the thread that has run it. -/
def Moved (s : Scheduler n) (e : Event n) (s' : Scheduler n) : Prop :=
  s'.agenda = s.agenda ∨ ∃ m, s.agenda.step m = some s'.agenda ∧
    ∀ time t thread, m = .add time t thread →
      e = .add time t ∨ ∃ i, s.threads.workers i = .running (.again t)

/-- What a step asks of the pool. -/
def Pooled (s s' : Scheduler n) : Prop :=
  s'.threads = s.threads ∨ ∃ pe, ThreadPool.step s.threads pe = some s'.threads

theorem parts_move (h : s.move m = some s') (hadd : ∀ time t thread, m = .add time t thread →
    e = .add time t ∨ ∃ i, s.threads.workers i = .running (.again t)) :
    Moved s e s' ∧ Pooled s s' :=
  ⟨.inr ⟨m, (move_some h).1, hadd⟩, .inl (move_some h).2⟩

theorem parts_pool {pe : ThreadPool.Event Job n} (h : s.pool pe = some s') :
    Moved s e s' ∧ Pooled s s' :=
  ⟨.inl (pool_some h).2, .inr ⟨pe, (pool_some h).1⟩⟩

theorem parts_both {pe : ThreadPool.Event Job n}
    (h : (s.move m).bind (fun s => s.pool pe) = some s')
    (hadd : ∀ time t thread, m ≠ .add time t thread) : Moved s e s' ∧ Pooled s s' := by
  obtain ⟨s₁, hmove, hpool⟩ := Option.bind_eq_some_iff.mp h
  obtain ⟨hm, hsame⟩ := move_some hmove
  obtain ⟨hp, hagenda⟩ := pool_some hpool
  exact ⟨.inr ⟨m, by rw [hagenda, hm], fun time t thread h => absurd h (hadd time t thread)⟩,
    .inr ⟨pe, by rw [← hsame, hp]⟩⟩

theorem again_some {now : Nat} (h : step s (.again i now) = some s') : ∃ t,
    s.threads.workers i = .running (.again t) ∧
      s.move (.add (t.getNewTime now) t (some i)) = some s' := by
  simp only [step] at h
  split at h
  · exact ⟨_, ‹_›, h⟩
  all_goals cases h

theorem interrupt_some (h : step s .interrupt = some s') :
    (s.agenda.lock = .adding none ∧ s.move .interrupt = some s') ∨
      ∃ i, s.agenda.lock = .adding (some i) ∧
        (s.move .interrupt).bind (fun s => s.pool (.work i)) = some s' := by
  simp only [step] at h
  split at h
  · exact .inl ⟨‹_›, h⟩
  · exact .inr ⟨_, ‹_›, h⟩
  all_goals cases h

theorem loop_some {now : Nat} {woken : Option (Fin n)} (h : step s (.loop i now woken) = some s') :
    (s.threads.workers i).holds Job.isLoop ∧
      ((s.agenda.request i woken = none ∧ s.move (.loop now) = some s') ∨
        ∃ pe, s.agenda.request i woken = some pe ∧
          (s.move (.loop now)).bind (fun s => s.pool pe) = some s') := by
  simp only [step, Option.ite_none_right_eq_some] at h
  refine ⟨h.1, ?_⟩
  split at h
  · exact .inl ⟨‹_›, h.2⟩
  · exact .inr ⟨_, ‹_›, h.2⟩

theorem step_parts (h : step s e = some s') : Moved s e s' ∧ Pooled s s' := by
  cases e with
  | construct | stop =>
    simp only [step, Option.ite_none_right_eq_some] at h
    exact parts_pool h.2
  | add time t =>
    simp only [step, Option.ite_none_right_eq_some] at h
    refine parts_move h.2 fun time' t' thread hm => .inl ?_
    cases hm
    rfl
  | close =>
    simp only [step, Option.ite_none_right_eq_some] at h
    exact parts_move h.2 nofun
  | again i now =>
    obtain ⟨t, ht, hmove⟩ := again_some h
    refine parts_move hmove fun time' t' thread hm => .inr ⟨i, ?_⟩
    cases hm
    exact ht
  | interrupt =>
    rcases interrupt_some h with ⟨-, hmove⟩ | ⟨i, -, hboth⟩
    · exact parts_move hmove nofun
    · exact parts_both hboth nofun
  | loop i now woken =>
    obtain ⟨-, ⟨-, hmove⟩ | ⟨pe, -, hboth⟩⟩ := loop_some h
    · exact parts_move hmove nofun
    · exact parts_both hboth nofun
  | work i =>
    simp only [step, Option.ite_none_left_eq_some] at h
    exact parts_pool h.2
  | notify woken | spurious i | notifyAll => exact parts_pool h
  | leave => exact parts_move h nofun

/-! ## The jobs of the pool -/

def Loop.isNotifying : Loop → Bool
  | .notifying _ _ _ _ => true
  | .checking | .finding | .sleeping _ | .managing | .pushing _ _ _ | .returned => false

def Loop.isReturned : Loop → Bool
  | .returned => true
  | .checking | .finding | .sleeping _ | .managing | .pushing _ _ _ | .notifying _ _ _ _ => false

/-- What the pool was given. -/
def Given (pushed : List Job) (handed : List Handover) : Prop :=
  (pushed = [] ∧ handed = []) ∨ pushed = .loop :: handed.map (·.task.job)

/-- The pool was given the loop and the tasks that were handed over; the loop, until it returns, is
with a thread that is in a push when the loop is. -/
structure Placed (s : Scheduler n) : Prop where
  jobs : Given s.threads.pushed s.agenda.handed
  held : s.threads.count (Worker.holds Job.isLoop) + s.agenda.loop.isReturned.toNat =
    s.threads.started.countP Job.isLoop
  fresh : s.threads.started.countP Job.isLoop = 0 → s.agenda.loop = .checking
  phase : ∀ i, (s.threads.workers i).holds Job.isLoop →
    (s.threads.workers i).isPushing = s.agenda.loop.isNotifying
  pushers : ∀ i, (s.threads.workers i).isPushing → (s.threads.workers i).holds Job.isLoop
  adding : ∀ i, s.agenda.lock = .adding (some i) → ∃ t, s.threads.workers i = .running (.again t)
  stopped : s.threads.isDone → s.agenda.life = .interrupted

theorem placed_start : Placed ({} : Scheduler n) :=
  ⟨.inl ⟨rfl, rfl⟩, ThreadPool.count_eq_zero fun _ => rfl, fun _ => rfl, nofun, nofun, nofun, nofun⟩

@[simp] theorem job_isLoop (t : Task) : t.job.isLoop = false := by
  unfold Task.job
  split <;> rfl

theorem one_loop {p : Pool Job n} {handed : List Handover} (hjobs : Given p.pushed handed)
    (hlive : ThreadPool.Live p) : p.started.countP Job.isLoop ≤ 1 := by
  have hpushed : p.pushed.countP Job.isLoop ≤ 1 := by
    rcases hjobs with ⟨hnone, -⟩ | hjobs
    · simp [hnone]
    · rw [hjobs, List.countP_cons, List.countP_map]
      have hzero : handed.countP (Job.isLoop ∘ fun g => g.task.job) = 0 := by simp
      simp [hzero, Job.isLoop]
  rw [hlive.order, List.countP_append] at hpushed
  omega

theorem same_thread (h : Placed s) (hlive : ThreadPool.Live s.threads)
    (hi : (s.threads.workers i).holds Job.isLoop) (hk : (s.threads.workers k).holds Job.isLoop) :
    i = k := by
  have hone := one_loop h.jobs hlive
  rw [← h.held] at hone
  exact ThreadPool.eq_of_count (by omega) hi hk

variable {p' : Pool Job n} {pe : ThreadPool.Event Job n}

theorem isLoop_of_stays {w : Worker Job} (h : w.holds Job.stays = false) :
    w.holds Job.isLoop = false := by
  cases w with
  | running j | pushing j => cases j <;> first | rfl | cases h
  | popping | testing | tested | waiting | ended => rfl

theorem placed_quiet (h : Placed s)
    (hp : ThreadPool.step s.threads pe = some p') (hcaller : pe.caller = none)
    (hstay : ∀ i, pe = .work i → (s.threads.workers i).holds Job.stays = false)
    (hlive' : ThreadPool.Live p') (hjobs : Given p'.pushed s.agenda.handed)
    (hstopped : p'.isDone → s.agenda.life = .interrupted) : Placed { s with threads := p' } := by
  have hheld := ThreadPool.held_step (P := Job.isLoop) hp fun i hi => isLoop_of_stays (hstay i hi)
  have hmono : s.threads.started.countP Job.isLoop ≤ p'.started.countP Job.isLoop :=
    (ThreadPool.started_step hp).sublist.countP_le
  have hturned := ThreadPool.turned_step hp hcaller
  refine ⟨hjobs, ?_, fun hzero => h.fresh (Nat.le_zero.mp (hmono.trans hzero.le)), fun i hi => ?_,
    fun i hi => ?_, fun i hi => ?_, hstopped⟩
  · have := h.held
    change p'.count _ + s.agenda.loop.isReturned.toNat = p'.started.countP _
    omega
  · rcases hturned i with (hsame | ⟨-, hidle⟩) | ⟨-, ⟨j, -, hpop⟩ | ⟨j, -, hstarted, hrun⟩⟩
    · simp only [hsame] at hi ⊢
      exact h.phase i hi
    · simp only [ThreadPool.holds_of_idle hidle] at hi
      cases hi
    · simp only [hpop] at hi
      cases hi
    · -- The loop is taken out of the queue, so that it has not moved yet.
      simp only [hrun] at hi ⊢
      have hj : j.isLoop = true := hi
      have hone := one_loop hjobs hlive'
      rw [hstarted, List.countP_append, List.countP_singleton, if_pos hj] at hone
      rw [h.fresh (by omega)]
      rfl
  · rcases hturned i with (hsame | ⟨-, hidle⟩) | ⟨-, ⟨j, -, hpop⟩ | ⟨j, -, hstarted, hrun⟩⟩
    · simp only [hsame] at hi ⊢
      exact h.pushers i hi
    · simp only [ThreadPool.pushing_of_idle hidle] at hi
      cases hi
    · simp only [hpop] at hi
      cases hi
    · simp only [hrun] at hi
      cases hi
  · obtain ⟨t, ht⟩ := h.adding i hi
    rcases hturned i with (hsame | ⟨hidle, -⟩) | ⟨hwork, -⟩
    · exact ⟨t, by simp only [hsame, ht]⟩
    · rw [ht] at hidle
      cases hidle
    · have hno := hstay i hwork
      rw [ht] at hno
      cases hno

theorem placed_agenda (h : Placed s) (hhanded : b.handed = s.agenda.handed)
    (hnotifying : b.loop.isNotifying = s.agenda.loop.isNotifying)
    (hreturned : b.loop.isReturned = s.agenda.loop.isReturned)
    (hfresh : s.threads.started.countP Job.isLoop = 0 → b.loop = s.agenda.loop)
    (hadding : ∀ i, b.lock = .adding (some i) → ∃ t, s.threads.workers i = .running (.again t))
    (hlife : s.agenda.life = .interrupted → b.life = .interrupted) :
    Placed { s with agenda := b } :=
  ⟨hhanded ▸ h.jobs, hreturned ▸ h.held, fun hzero => (hfresh hzero).trans (h.fresh hzero),
    hnotifying ▸ h.phase, h.pushers, hadding, fun hdone => hlife (h.stopped hdone)⟩

theorem loop_started (h : Placed s) (hi : (s.threads.workers i).holds Job.isLoop) :
    s.threads.started.countP Job.isLoop ≠ 0 := by
  have hone := ThreadPool.one_le_count hi
  have hheld := h.held
  omega

theorem loop_quiet {woken : Option (Fin n)} (hreq : a.request i woken = none)
    (hb : a.loopStep now = some b) :
    b.handed = a.handed ∧ b.loop.isNotifying = a.loop.isNotifying ∧
      b.loop.isReturned = a.loop.isReturned ∧ b.life = a.life ∧
      ∀ thread, b.lock = .adding thread → a.lock = .adding thread := by
  cases looped hb with
  | quit hl hlife => simp [Agenda.request, hl, hlife] at hreq
  | push hl | notify hl => simp [Agenda.request, hl] at hreq
  | manage hl hfree | finish hl => exact ⟨rfl, by rw [hl]; rfl, by rw [hl]; rfl, rfl, nofun⟩
  | check hl hlife | find hl hfree | wake hl hwake =>
    exact ⟨rfl, by rw [hl]; rfl, by rw [hl]; rfl, rfl, fun _ h => h⟩

theorem placed_own (h : Placed s) (hlive : ThreadPool.Live s.threads)
    (hi : (s.threads.workers i).holds Job.isLoop) (hjobs : Given p'.pushed b.handed)
    (hstarted : p'.started = s.threads.started)
    (hheld : p'.count (Worker.holds Job.isLoop) + b.loop.isReturned.toNat =
      s.threads.count (Worker.holds Job.isLoop) + s.agenda.loop.isReturned.toNat)
    (hphase : (p'.workers i).holds Job.isLoop → (p'.workers i).isPushing = b.loop.isNotifying)
    (hpusher : (p'.workers i).isPushing → (p'.workers i).holds Job.isLoop)
    (hother : ∀ k, k ≠ i → ThreadPool.Keeps s.threads p' k)
    (hlock : b.lock = s.agenda.lock) (hlife : b.life = s.agenda.life)
    (hdone : p'.isDone = s.threads.isDone) : Placed ⟨b, p'⟩ := by
  refine ⟨hjobs, ?_, fun hzero => ?_, fun k hk => ?_, fun k hk => ?_, fun k hk => ?_, fun hd => ?_⟩
  · change p'.count _ + b.loop.isReturned.toNat = p'.started.countP _
    rw [hheld, hstarted, h.held]
  · exact absurd (hstarted ▸ hzero) (loop_started h hi)
  · by_cases hki : k = i
    · subst hki
      exact hphase hk
    · rcases hother k hki with hsame | ⟨-, hidle⟩
      · exact absurd (same_thread h hlive (by simpa only [hsame] using hk) hi) hki
      · simp only [ThreadPool.holds_of_idle hidle] at hk
        cases hk
  · by_cases hki : k = i
    · subst hki
      exact hpusher hk
    · rcases hother k hki with hsame | ⟨-, hidle⟩
      · simp only [hsame] at hk ⊢
        exact h.pushers k hk
      · simp only [ThreadPool.pushing_of_idle hidle] at hk
        cases hk
  · obtain ⟨t, ht⟩ := h.adding k (hlock ▸ hk)
    have hki : k ≠ i := by
      rintro rfl
      rw [ht] at hi
      cases hi
    rcases hother k hki with hsame | ⟨hidle, -⟩
    · exact ⟨t, by simp only [hsame, ht]⟩
    · rw [ht] at hidle
      cases hidle
  · exact hlife ▸ h.stopped (hdone ▸ hd)

theorem running_loop {w : Worker Job} (h : w.holds Job.isLoop) (hpush : w.isPushing = false) :
    w = .running .loop := by
  cases w with
  | running j => cases j <;> first | rfl | cases h
  | pushing j => cases hpush
  | popping | testing | tested | waiting | ended => cases h

theorem pushing_loop {w : Worker Job} (h : w.holds Job.isLoop) (hpush : w.isPushing = true) :
    w = .pushing .loop := by
  cases w with
  | pushing j => cases j <;> first | rfl | cases h
  | running j => cases hpush
  | popping | testing | tested | waiting | ended => cases h

theorem given_push {pushed : List Job} {handed : List Handover} (h : Given pushed handed)
    (hloop : pushed ≠ []) (g : Handover) :
    Given (pushed ++ [g.task.job]) (handed ++ [g]) := by
  rcases h with ⟨hnone, -⟩ | hjobs
  · exact absurd hnone hloop
  · right
    rw [hjobs]
    simp

theorem placed_quit (h : Placed s) (hlive : ThreadPool.Live s.threads)
    (hi : (s.threads.workers i).holds Job.isLoop) (hl : s.agenda.loop = .checking)
    (hp : ThreadPool.step s.threads (.work i) = some p') :
    Placed ⟨{ s.agenda with loop := .returned }, p'⟩ := by
  have hw := running_loop hi (by rw [h.phase i hi, hl]; rfl)
  simp only [ThreadPool.step, Pool.work, hw, Option.some.injEq] at hp
  subst hp
  have hcount : (s.threads.put i .popping).count (Worker.holds Job.isLoop) + 1 =
    s.threads.count (Worker.holds Job.isLoop) + 0 := ThreadPool.put_count _ hw
  refine placed_own h hlive hi h.jobs rfl ?_ (by simp [Worker.holds]) (by simp [Worker.isPushing])
    (fun k hki => .inl (ThreadPool.put_other hki)) rfl rfl rfl
  rw [hl]
  exact hcount

theorem placed_push {read time : Nat} {t : Task} {due : List (Nat × Task)}
    {recurred : Multimap Nat Task} (h : Placed s) (hlive : ThreadPool.Live s.threads)
    (hi : (s.threads.workers i).holds Job.isLoop)
    (hl : s.agenda.loop = .pushing read ((time, t) :: due) recurred)
    (hp : ThreadPool.step s.threads (.push (some i) t.job) = some p') :
    Placed ⟨{ s.agenda with
      loop := .notifying read t due recurred
      handed := s.agenda.handed ++ [⟨read, time, t⟩] }, p'⟩ := by
  have hw := running_loop hi (by rw [h.phase i hi, hl]; rfl)
  simp only [ThreadPool.step, hw, Option.some.injEq] at hp
  subst hp
  have hloop : s.threads.pushed ≠ [] := by
    intro hnone
    have hstarted := loop_started h hi
    have horder := hlive.order
    rw [hnone] at horder
    simp [(List.append_eq_nil_iff.mp horder.symm).1] at hstarted
  refine placed_own h hlive hi (given_push h.jobs hloop ⟨read, time, t⟩) rfl ?_
    (fun _ => by rw [ThreadPool.put_same]; rfl) (fun _ => by rw [ThreadPool.put_same]; rfl)
    (fun k hki => .inl (ThreadPool.put_other hki)) rfl rfl rfl
  rw [hl, ThreadPool.put_holds (p := s.threads.enqueue t.job) (w := .pushing .loop) hw rfl]
  rfl

theorem placed_notify {read : Nat} {t : Task} {due : List (Nat × Task)}
    {recurred recurred' : Multimap Nat Task} {woken : Option (Fin n)} (h : Placed s)
    (hlive : ThreadPool.Live s.threads) (hi : (s.threads.workers i).holds Job.isLoop)
    (hl : s.agenda.loop = .notifying read t due recurred)
    (hp : ThreadPool.step s.threads (.notify (some i) woken) = some p') :
    Placed ⟨{ s.agenda with loop := .pushing read due recurred' }, p'⟩ := by
  have hw := pushing_loop hi (by rw [h.phase i hi, hl]; rfl)
  simp only [ThreadPool.step, hw, Option.ite_none_right_eq_some] at hp
  obtain ⟨-, hwake⟩ := hp
  have hself : p'.workers i = .running .loop := by
    rw [ThreadPool.wake_busy hwake (i := i) (by rw [ThreadPool.put_same]; rfl), ThreadPool.put_same]
  obtain ⟨hstarted, hpushed, -, hdone⟩ := ThreadPool.wake_same hwake
  refine placed_own h hlive hi (hpushed ▸ h.jobs) hstarted ?_ (fun _ => by rw [hself]; rfl)
    (by simp [hself, Worker.isPushing]) (fun k hki => ?_) rfl rfl (hdone.trans rfl)
  · rw [hl, ThreadPool.wake_holds hwake, ThreadPool.put_holds (w := .running .loop) hw rfl]
    rfl
  · have hkeeps := ThreadPool.keeps_wake hwake k
    simpa only [ThreadPool.Keeps, ThreadPool.put_other hki] using hkeeps

theorem placed_request {woken : Option (Fin n)} (h : Placed s) (hlive : ThreadPool.Live s.threads)
    (hi : (s.threads.workers i).holds Job.isLoop) (hreq : s.agenda.request i woken = some pe)
    (hb : s.agenda.loopStep now = some b) (hp : ThreadPool.step s.threads pe = some p') :
    Placed ⟨b, p'⟩ := by
  cases looped hb with
  | quit hl hlife =>
    simp only [Agenda.request, hl, hlife, if_false, Option.some.injEq] at hreq
    exact placed_quit h hlive hi hl (hreq ▸ hp)
  | push hl =>
    simp only [Agenda.request, hl, Option.some.injEq] at hreq
    exact placed_push h hlive hi hl (hreq ▸ hp)
  | notify hl =>
    simp only [Agenda.request, hl, Option.some.injEq] at hreq
    exact placed_notify h hlive hi hl (hreq ▸ hp)
  | check hl hlife => simp [Agenda.request, hl, hlife] at hreq
  | find hl hfree | wake hl hwake | manage hl hfree | finish hl =>
    simp [Agenda.request, hl] at hreq

theorem placed_return {t : Task} (h : Placed s) (hw : s.threads.workers i = .running (.again t))
    (hlock : s.agenda.lock = .adding (some i)) :
    Placed { agenda := { s.agenda with interrupted := true, lock := .free },
             threads := s.threads.put i .popping } := by
  refine ⟨h.jobs, ?_, h.fresh, fun k hk => ?_, fun k hk => ?_, nofun, h.stopped⟩
  · exact (congrArg (· + _) (ThreadPool.put_holds (w := .popping) hw rfl)).trans h.held
  · by_cases hki : k = i
    · subst hki
      simp [Worker.holds] at hk
    · simp only [ThreadPool.put_other hki] at hk ⊢
      exact h.phase k hk
  · by_cases hki : k = i
    · subst hki
      simp [Worker.isPushing] at hk
    · simp only [ThreadPool.put_other hki] at hk ⊢
      exact h.pushers k hk

theorem stopped_pool (h : Placed s) (hpool : s.pool pe = some s') (hpe : pe ≠ .done)
    (hdone : s'.threads.isDone) : s.agenda.life = .interrupted := by
  rcases ThreadPool.step_isDone (pool_some hpool).1 with hd | hd
  · exact h.stopped (hd ▸ hdone)
  · exact absurd hd hpe

theorem placed_pool (hn : 0 < n) (h : Placed s) (hlive : ThreadPool.Live s.threads)
    (hpool : s.pool pe = some s') (hcaller : pe.caller = none) (hposted : pe.posted = none)
    (hstay : ∀ i, pe = .work i → (s.threads.workers i).holds Job.stays = false)
    (hdone : s'.threads.isDone → s.agenda.life = .interrupted) : Placed s' := by
  obtain ⟨hp, hagenda⟩ := pool_some hpool
  have hjobs : Given s'.threads.pushed s.agenda.handed := by
    rw [ThreadPool.posted_step hp, hposted, Option.toList_none, List.append_nil]
    exact h.jobs
  have := placed_quiet h hp hcaller hstay (ThreadPool.live_step hn hlive hp) hjobs hdone
  rwa [← hagenda] at this

theorem placed_construct (hn : 0 < n) (h : Placed s) (hlive : ThreadPool.Live s.threads)
    (hnone : s.threads.pushed = []) (hpool : s.pool (.push none .loop) = some s') : Placed s' := by
  obtain ⟨hp, hagenda⟩ := pool_some hpool
  have hhanded : s.agenda.handed = [] := by
    rcases h.jobs with ⟨-, hhanded⟩ | hjobs
    · exact hhanded
    · rw [hnone] at hjobs
      cases hjobs
  have hjobs : Given s'.threads.pushed s.agenda.handed := by
    rw [ThreadPool.posted_step hp, hnone, hhanded]
    exact .inr rfl
  have := placed_quiet h hp rfl (fun k hk => by cases hk) (ThreadPool.live_step hn hlive hp)
    hjobs (stopped_pool h hpool (by simp))
  rwa [← hagenda] at this

theorem move_agenda {m : Move n} (hmove : s.move m = some s') :
    s' = { s with agenda := s'.agenda } := by
  rw [← (move_some hmove).2]

theorem placed_add {time : Nat} {t : Task} {thread : Option (Fin n)} (h : Placed s)
    (hmove : s.move (.add time t thread) = some s')
    (hthread : ∀ i, thread = some i → ∃ t, s.threads.workers i = .running (.again t)) :
    Placed s' := by
  have hm := (move_some hmove).1
  simp only [Agenda.step, Option.ite_none_right_eq_some, Option.some.injEq] at hm
  rw [move_agenda hmove, ← hm.2]
  exact placed_agenda h rfl rfl rfl (fun _ => rfl) (fun k hk => hthread k (Lock.adding.inj hk)) id

theorem placed_interrupt (h : Placed s) (hs : step s .interrupt = some s') : Placed s' := by
  rcases interrupt_some hs with ⟨hlock, hmove⟩ | ⟨i, hlock, hboth⟩
  · have hm := (move_some hmove).1
    simp only [Agenda.step, hlock, Option.some.injEq] at hm
    rw [move_agenda hmove, ← hm]
    exact placed_agenda h rfl rfl rfl (fun _ => rfl) (fun k hk => by cases hk) id
  · obtain ⟨s₁, hmove, hpool⟩ := Option.bind_eq_some_iff.mp hboth
    obtain ⟨hm, hsame⟩ := move_some hmove
    obtain ⟨hp, hagenda⟩ := pool_some hpool
    obtain ⟨t, ht⟩ := h.adding i hlock
    simp only [Agenda.step, hlock, Option.some.injEq] at hm
    simp only [hsame, ThreadPool.step, Pool.work, ht, Option.some.injEq] at hp
    have hs' : s' = ⟨s'.agenda, s'.threads⟩ := rfl
    rw [hs', ← hp, hagenda, ← hm]
    exact placed_return h ht hlock

theorem placed_loop {woken : Option (Fin n)} (h : Placed s) (hlive : ThreadPool.Live s.threads)
    (hs : step s (.loop i now woken) = some s') : Placed s' := by
  obtain ⟨hi, ⟨hreq, hmove⟩ | ⟨pe, hreq, hboth⟩⟩ := loop_some hs
  · obtain ⟨hhanded, hnotifying, hreturned, hlife, hlock⟩ := loop_quiet hreq (move_some hmove).1
    rw [move_agenda hmove]
    exact placed_agenda h hhanded hnotifying hreturned
      (fun hzero => absurd hzero (loop_started h hi)) (fun k hk => h.adding k (hlock _ hk))
      (fun hl => hlife.trans hl)
  · obtain ⟨s₁, hmove, hpool⟩ := Option.bind_eq_some_iff.mp hboth
    obtain ⟨hm, hsame⟩ := move_some hmove
    obtain ⟨hp, hagenda⟩ := pool_some hpool
    have hs' : s' = ⟨s₁.agenda, s'.threads⟩ := by rw [← hagenda]
    rw [hs']
    exact placed_request h hlive hi hreq hm (hsame ▸ hp)

theorem placed_step (hn : 0 < n) (h : Placed s) (hlive : ThreadPool.Live s.threads)
    (hs : step s e = some s') : Placed s' := by
  cases e with
  | construct =>
    simp only [step, Option.ite_none_right_eq_some, List.isEmpty_iff] at hs
    exact placed_construct hn h hlive hs.1 hs.2
  | add time t =>
    simp only [step, Option.ite_none_right_eq_some] at hs
    exact placed_add h hs.2 fun k hk => by cases hk
  | again i now =>
    obtain ⟨t, ht, hmove⟩ := again_some hs
    refine placed_add h hmove fun k hk => ?_
    cases hk
    exact ⟨t, ht⟩
  | interrupt => exact placed_interrupt h hs
  | loop i now woken => exact placed_loop h hlive hs
  | work i =>
    simp only [step, Option.ite_none_left_eq_some, Bool.not_eq_true] at hs
    refine placed_pool hn h hlive hs.2 rfl rfl (fun k hk => ?_) (stopped_pool h hs.2 (by simp))
    cases hk
    exact hs.1
  | notify woken | spurious i | notifyAll =>
    exact placed_pool hn h hlive hs rfl rfl (fun k hk => by cases hk)
      (stopped_pool h hs (by simp))
  | stop =>
    simp only [step, Option.ite_none_right_eq_some] at hs
    exact placed_pool hn h hlive hs.2 rfl rfl (fun k hk => by cases hk) fun _ => hs.1
  | close =>
    simp only [step, Option.ite_none_right_eq_some] at hs
    have hm := (move_some hs.2).1
    simp only [Agenda.step, Option.ite_none_right_eq_some, Option.some.injEq] at hm
    rw [move_agenda hs.2, ← hm.2]
    refine placed_agenda h rfl rfl rfl (fun _ => rfl) h.adding fun hl => ?_
    rw [hm.1] at hl
    cases hl
  | leave =>
    have hm := (move_some hs).1
    simp only [Agenda.step, Option.ite_none_right_eq_some, Option.some.injEq] at hm
    rw [move_agenda hs, ← hm.2]
    exact placed_agenda h rfl rfl rfl (fun _ => rfl) h.adding fun _ => rfl

/-! ## Every run of the scheduler -/

structure Sound (s : Scheduler n) : Prop where
  ordered : Ordered s.agenda
  awaited : Awaited s.agenda
  live : ThreadPool.Live s.threads
  met : ThreadPool.Met s.threads
  placed : Placed s

theorem sound_start : Sound ({} : Scheduler n) :=
  ⟨ordered_start, awaited_start, ThreadPool.live_start, ThreadPool.met_start, placed_start⟩

theorem sound_step (hn : 0 < n) (h : Sound s) (hs : step s e = some s') : Sound s' := by
  obtain ⟨hmoved, hpooled⟩ := step_parts hs
  have hagenda : Ordered s'.agenda ∧ Awaited s'.agenda := by
    rcases hmoved with hsame | ⟨m, hm, -⟩
    · exact hsame ▸ ⟨h.ordered, h.awaited⟩
    · exact ⟨ordered_step h.ordered hm, awaited_step h.awaited hm⟩
  have hthreads : ThreadPool.Live s'.threads ∧ ThreadPool.Met s'.threads := by
    rcases hpooled with hsame | ⟨pe, hpe⟩
    · exact hsame ▸ ⟨h.live, h.met⟩
    · exact ⟨ThreadPool.live_step hn h.live hpe, ThreadPool.met_step h.met hpe⟩
  exact ⟨hagenda.1, hagenda.2, hthreads.1, hthreads.2, placed_step hn h.placed h.live hs⟩

theorem sound_run {es : List (Event n)} (hn : 0 < n) (h : run step {} es = some s) : Sound s := by
  have hall : Always step Sound ({} : Scheduler n) es :=
    always_of_step sound_start (fun _ _ _ hI he => sound_step hn hI he) es
  exact hall.here h

/-- **Once and in time.** In every run, the tasks of each time that were added are those that were
handed to the pool, then those that `manage_tasks` holds, then those that wait, each list in the
order in which they were added. None is handed over before its time; and what the pool was given,
the loop and then these tasks, is what its threads have started and its queue. -/
theorem tasks_once {es : List (Event n)} (hn : 0 < n) (h : run step {} es = some s) :
    (∀ time, valuesAt time s.agenda.added = valuesAt time s.agenda.given ++
      valuesAt time s.agenda.loop.due ++ valuesAt time s.agenda.tasks.entries) ∧
    (∀ g ∈ s.agenda.handed, g.time ≤ g.now) ∧
    Given (s.threads.started ++ s.threads.queue) s.agenda.handed := by
  have hs := sound_run hn h
  exact ⟨hs.ordered.order, hs.ordered.early, hs.live.order ▸ hs.placed.jobs⟩

/-- Two threads, and two tasks that are added while the loop is about to sleep, or sleeps. -/
abbrev twoTasks : List (Event 2) :=
  [.construct, .work t0, .notify none, .work t1, .work t1, .work t1, .loop t0 0 none,
    .loop t0 0 none, .add 5 { f := 1 }, .interrupt, .loop t0 3 none, .loop t0 3 none,
    .loop t0 3 none, .loop t0 3 none, .loop t0 3 none, .add 50 { f := 2 }, .interrupt,
    .loop t0 6 none, .loop t0 6 none, .loop t0 6 none, .loop t0 6 (some t1), .loop t0 6 none,
    .loop t0 6 none, .loop t0 6 none, .work t1, .work t1, .work t1, .work t1, .work t1]

theorem tasks_once_two : ∃ s, run step {} twoTasks = some s ∧
    (valuesAt 5 s.agenda.added = valuesAt 5 s.agenda.given ++ valuesAt 5 s.agenda.loop.due ++
      valuesAt 5 s.agenda.tasks.entries) ∧
    (∀ g ∈ s.agenda.handed, g.time ≤ g.now) ∧
    Given (s.threads.started ++ s.threads.queue) s.agenda.handed := by
  obtain ⟨s, hs⟩ : ∃ s, run step {} twoTasks = some s := ⟨_, rfl⟩
  obtain ⟨horder, hearly, hgiven⟩ := tasks_once (by decide) hs
  exact ⟨s, hs, horder 5, hearly, hgiven⟩

end Owls.Bosma
