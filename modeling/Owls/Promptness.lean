import Owls.Scheduler

/-!
# The scheduler is prompt

Once its threads have nothing left to do while the clock shows a time, all tasks of this time have
been run.
-/

open Machine

namespace Owls.Bosma

open ThreadPool (Pool Worker t0 t1)

variable {n : Nat} {a b : Agenda n} {s s' : Scheduler n} {e : Event n} {i k : Fin n} {now : Nat}

/-! ## The scheduler at rest -/

/-- The steps that the threads take by themselves while the clock shows `now`. -/
def Event.own (now : Nat) : Event n → Bool
  | .loop _ read _ | .again _ read => read == now
  | .interrupt | .work _ | .notify _ | .leave | .stop | .notifyAll => true
  | .construct | .add _ _ | .spurious _ | .close => false

/-- Nothing more happens by itself while the clock shows `now`. -/
def Resting (now : Nat) (s : Scheduler n) : Prop := ∀ e, e.own now → step s e = none

theorem exists_loopStep (hsleep : ∀ deadline, a.loop ≠ .sleeping deadline)
    (hreturned : a.loop ≠ .returned) (hlock : a.loop.inManage = false → a.lock = .free)
    (now : Nat) : ∃ b, a.loopStep now = some b := by
  unfold Agenda.loopStep
  cases hl : a.loop with
  | checking => exact ⟨_, rfl⟩
  | finding | managing => exact ⟨_, if_pos (hlock (by rw [hl]; rfl))⟩
  | sleeping deadline => exact absurd hl (hsleep deadline)
  | pushing read due recurred => cases due <;> exact ⟨_, rfl⟩
  | notifying read t due recurred => exact ⟨_, rfl⟩
  | returned => exact absurd hl hreturned

theorem rest_pool (hs : Sound s) (h : Resting now s) :
    ThreadPool.Resting Job.stays s.threads := by
  have hpool {pe : ThreadPool.Event Job n} (hnone : s.pool pe = none) :
      ThreadPool.step s.threads pe = none := by simpa [Scheduler.pool] using hnone
  intro pe hown hstay
  cases pe with
  | notify caller woken =>
    cases caller with
    | none => exact hpool (h (.notify woken) rfl)
    | some i =>
      -- The push is one of the loop, which goes on to notify.
      have hloop := h (.loop i now woken) (by simp [Event.own])
      cases hw : s.threads.workers i with
      | pushing j =>
        have hi := hs.placed.pushers i (by rw [hw]; rfl)
        have hnotifying := hs.placed.phase i hi
        rw [hw] at hnotifying
        cases hl : s.agenda.loop with
        | notifying read t due recurred =>
          simpa [step, hi, Agenda.request, hl, Scheduler.move, Scheduler.pool, Agenda.step,
            Agenda.loopStep] using hloop
        | checking | finding | sleeping deadline | managing | pushing read due recurred
        | returned =>
          rw [hl] at hnotifying
          cases hnotifying
      | popping | running j | testing | tested | waiting | ended =>
        simp [ThreadPool.step, hw]
  | work i =>
    have hwork := h (.work i) rfl
    simp only [step, hstay i rfl, Bool.false_eq_true, if_false] at hwork
    exact hpool hwork
  | notifyAll => exact hpool (h .notifyAll rfl)
  | push caller j | spurious i | done => cases hown

theorem rest_lock (hs : Sound s) (h : Resting now s) (thread : Option (Fin n)) :
    s.agenda.lock ≠ .adding thread := by
  intro hlock
  have hinterrupt := h .interrupt rfl
  cases thread with
  | none => simp [step, hlock, Scheduler.move, Agenda.step] at hinterrupt
  | some i =>
    obtain ⟨t, ht⟩ := hs.placed.adding i hlock
    simp [step, hlock, Scheduler.move, Scheduler.pool, Agenda.step, ThreadPool.step, Pool.work, ht]
      at hinterrupt

theorem rest_loop (hs : Sound s) (h : Resting now s)
    (hi : (s.threads.workers i).holds Job.isLoop) :
    s.threads.workers i = .running .loop ∧ s.agenda.interrupted = false ∧
      ∃ deadline, s.agenda.loop = .sleeping deadline ∧ ¬ deadline.any (· ≤ now) := by
  have hstep := h (.loop i now none) (by simp [Event.own])
  have hrun : s.threads.workers i = .running .loop := by
    rcases ThreadPool.worker_of_resting (rest_pool hs h) i with hw | hw | ⟨j, -, hw⟩
    · simp [hw, Worker.holds] at hi
    · simp [hw, Worker.holds] at hi
    · exact running_loop hi (by rw [hw]; rfl)
  have hnotifying : s.agenda.loop.isNotifying = false := by
    rw [← hs.placed.phase i hi, hrun]
    rfl
  have hreturned : s.agenda.loop ≠ .returned := by
    intro hl
    have hone := one_loop hs.placed.jobs hs.live
    have hheld := hs.placed.held
    have hcount := ThreadPool.one_le_count hi
    rw [hl] at hheld
    change _ + 1 = _ at hheld
    omega
  have hfree : s.agenda.loop.inManage = false → s.agenda.lock = .free := fun hout => by
    cases hlock : s.agenda.lock with
    | free => rfl
    | adding thread => exact absurd hlock (rest_lock hs h thread)
    | managing => rw [hs.ordered.locked.mpr hlock] at hout; cases hout
  have hasleep : ∃ deadline, s.agenda.loop = .sleeping deadline := by
    by_contra hno
    obtain ⟨b, hb⟩ := exists_loopStep (fun deadline hl => hno ⟨deadline, hl⟩) hreturned hfree now
    have hmove : s.move (.loop now) = some { s with agenda := b } := by
      simp [Scheduler.move, Agenda.step, hb]
    cases hreq : s.agenda.request i none with
    | none => simp [step, hi, hreq, hmove] at hstep
    | some pe =>
      simp only [step, hi, hreq, hmove, if_true, Option.bind_some] at hstep
      -- A request of a thread that runs the loop is one that the pool meets.
      unfold Agenda.request at hreq
      split at hreq
      · simp only [Option.ite_none_left_eq_some, Option.some.injEq] at hreq
        simp [← hreq.2, Scheduler.pool, ThreadPool.step, Pool.work, hrun] at hstep
      · cases hreq
        simp [Scheduler.pool, ThreadPool.step, hrun] at hstep
      · rename_i hl
        simp [hl, Loop.isNotifying] at hnotifying
      all_goals cases hreq
  obtain ⟨deadline, hl⟩ := hasleep
  have hreq : s.agenda.request i none = none := by simp [Agenda.request, hl]
  simp only [step, hi, hreq, if_true, Scheduler.move, Agenda.step, Agenda.loopStep, hl,
    Option.map_eq_none_iff, ite_eq_right_iff, reduceCtorEq, imp_false, not_or] at hstep
  exact ⟨hrun, by simpa using hstep.1, deadline, hl, hstep.2⟩

theorem rest_free (hs : Sound s) (h : Resting now s) : s.agenda.lock = .free := by
  cases hlock : s.agenda.lock with
  | free => rfl
  | adding thread => exact absurd hlock (rest_lock hs h thread)
  | managing =>
    have hmanage := hs.ordered.locked.mpr hlock
    -- The loop has been started and has not returned, so that a thread runs it.
    have hheld := hs.placed.held
    have hreturned : s.agenda.loop.isReturned = false := by
      cases hl : s.agenda.loop <;> simp_all [Loop.inManage, Loop.isReturned]
    have hstarted : s.threads.started.countP Job.isLoop ≠ 0 := fun hzero => by
      rw [hs.placed.fresh hzero] at hmanage
      cases hmanage
    rw [hreturned] at hheld
    have hcount : s.threads.count (Worker.holds Job.isLoop) ≠ 0 := by
      change _ + 0 = _ at hheld
      omega
    by_contra
    refine hcount (ThreadPool.count_eq_zero fun i => ?_)
    rw [Bool.eq_false_iff]
    intro hi
    obtain ⟨-, -, deadline, hl, -⟩ := rest_loop hs h hi
    rw [hl] at hmanage
    cases hmanage

theorem rest_worker (hs : Sound s) (h : Resting now s) (i : Fin n) :
    s.threads.workers i = (if s.threads.isDone then .ended else .waiting) ∨
      s.threads.workers i = .running .loop := by
  rcases ThreadPool.worker_at_rest hs.live (rest_pool hs h) i with hw | ⟨j, hstays, hw⟩
  · exact .inl hw
  · cases j with
    | loop => exact .inr hw
    | task t => cases hstays
    | again t =>
      have hagain := h (.again i now) (by simp [Event.own])
      simp [step, hw, Scheduler.move, Agenda.step, rest_free hs h] at hagain

theorem loop_at_rest (hs : Sound s) (hc : s.constructed) (hstarted : s.threads.queue = []) :
    (∃ i, (s.threads.workers i).holds Job.isLoop) ∨ s.agenda.loop = .returned := by
  by_contra hno
  rw [not_or, not_exists] at hno
  have hcount : s.threads.count (Worker.holds Job.isLoop) = 0 :=
    ThreadPool.count_eq_zero fun i => by simpa using hno.1 i
  have hheld := hs.placed.held
  have hreturned : s.agenda.loop.isReturned = false := by
    cases hl : s.agenda.loop <;> simp_all [Loop.isReturned]
  have horder := hs.live.order
  rw [hstarted, List.append_nil] at horder
  rw [hcount, hreturned, ← horder] at hheld
  rcases hs.placed.jobs with ⟨hnone, -⟩ | hjobs
  · simp [Scheduler.constructed, hnone] at hc
  · rw [hjobs, List.countP_cons] at hheld
    simp [Job.isLoop] at hheld

theorem given_started (hs : Sound s) (hc : s.constructed) (hqueue : s.threads.queue = []) :
    s.threads.started = .loop :: s.agenda.handed.map (·.task.job) := by
  have horder := hs.live.order
  rw [hqueue, List.append_nil] at horder
  rcases hs.placed.jobs with ⟨hnone, -⟩ | hjobs
  · simp [Scheduler.constructed, hnone] at hc
  · rw [← horder, hjobs]

theorem rest_not_done (h : Resting now s) : s.agenda.life ≠ .done := by
  intro hlife
  have hleave := h .leave rfl
  simp [step, Scheduler.move, Agenda.step, hlife] at hleave

theorem rest_alive (hs : Sound s) (h : Resting now s) (hn : 2 ≤ n) (hc : s.constructed)
    (hlife : s.agenda.life = .alive) :
    s.threads.queue = [] ∧ (∀ x ∈ s.agenda.tasks.entries, now < x.1) ∧ s.agenda.loop.due = [] ∧
      ∃ i, ∀ k, s.threads.workers k = if k = i then .running .loop else .waiting := by
  have hdone : s.threads.isDone = false := by
    rw [Bool.eq_false_iff]
    intro hdone
    rw [hs.placed.stopped hdone] at hlife
    cases hlife
  have hworkers := rest_worker hs h
  simp only [hdone, Bool.false_eq_true, if_false] at hworkers
  have hsame {i k : Fin n} (hi : s.threads.workers i = .running .loop)
      (hk : s.threads.workers k = .running .loop) : i = k :=
    same_thread hs.placed hs.live (by rw [hi]; rfl) (by rw [hk]; rfl)
  -- Of two threads at most one runs the loop, so that one waits.
  have hwaiting : ∃ i, s.threads.workers i = .waiting := by
    rcases hworkers ⟨0, by omega⟩ with hw | hw
    · exact ⟨_, hw⟩
    · rcases hworkers ⟨1, by omega⟩ with hw' | hw'
      · exact ⟨_, hw'⟩
      · cases hsame hw hw'
  have hqueue := ThreadPool.queue_of_resting hs.live hs.met (rest_pool hs h) (.inl hwaiting)
  rcases loop_at_rest hs hc hqueue with ⟨i, hi⟩ | hreturned
  · obtain ⟨hrun, hinterrupted, deadline, hl, hlate⟩ := rest_loop hs h hi
    refine ⟨hqueue, fun x hx => ?_, by rw [hl]; rfl, i, fun k => ?_⟩
    · rcases hs.awaited.slept deadline hl with hint | ⟨thread, hadding⟩ | hcovered
      · rw [hinterrupted] at hint
        cases hint
      · exact absurd hadding (rest_lock hs h thread)
      · obtain ⟨time, rfl, hle⟩ := hcovered x hx
        simp only [Option.any_some, decide_eq_true_eq, not_le] at hlate
        omega
    · by_cases hki : k = i
      · rw [if_pos hki, hki, hrun]
      · rw [if_neg hki]
        exact (hworkers k).resolve_right fun hk => hki (hsame hk hrun)
  · exact absurd hlife (hs.awaited.quit hreturned)

theorem rest_destroyed (hs : Sound s) (h : Resting now s) (hc : s.constructed)
    (hlife : s.agenda.life ≠ .alive) :
    s.threads.queue = [] ∧ s.agenda.loop = .returned ∧ ∀ k, s.threads.workers k = .ended := by
  have hinterrupted : s.agenda.life = .interrupted := by
    cases hl : s.agenda.life with
    | alive => exact absurd hl hlife
    | done => exact absurd hl (rest_not_done h)
    | interrupted => rfl
  have hdone : s.threads.isDone := by
    by_contra hdone
    have hstop := h .stop rfl
    have hentering := ThreadPool.entering_of_resting (rest_pool hs h)
    simp [step, hinterrupted, Scheduler.pool, ThreadPool.step, hdone, hentering] at hstop
  -- A loop that sleeps now is one that nobody has interrupted, and the destructor has.
  have hnoloop (i : Fin n) : (s.threads.workers i).holds Job.isLoop = false := by
    rw [Bool.eq_false_iff]
    intro hi
    obtain ⟨-, hint, deadline, hl, -⟩ := rest_loop hs h hi
    rw [hs.awaited.left hinterrupted (.inr ⟨deadline, hl⟩)] at hint
    cases hint
  have hended (k : Fin n) : s.threads.workers k = .ended := by
    rcases rest_worker hs h k with hw | hw
    · rwa [if_pos hdone] at hw
    · have := hnoloop k
      rw [hw] at this
      cases this
  have hqueue := ThreadPool.queue_of_resting hs.live hs.met (rest_pool hs h)
    (.inr fun i j hw => by rw [hended i] at hw; cases hw)
  rcases loop_at_rest hs hc hqueue with ⟨i, hi⟩ | hreturned
  · rw [hnoloop i] at hi
    cases hi
  · exact ⟨hqueue, hreturned, hended⟩

theorem resting_asleep {deadline : Option Nat}
    (hworkers : ∀ k, s.threads.workers k = if k = i then .running .loop else .waiting)
    (hentering : s.threads.entering = 0) (hdone : s.threads.isDone = false)
    (hlock : s.agenda.lock = .free) (hlife : s.agenda.life = .alive)
    (hl : s.agenda.loop = .sleeping deadline) (hint : s.agenda.interrupted = false)
    (hlate : ¬ deadline.any (· ≤ now)) : Resting now s := by
  intro e he
  cases e with
  | again k read =>
    have hw := hworkers k
    split at hw <;> simp [step, hw]
  | loop k read woken =>
    obtain rfl : read = now := by simpa [Event.own] using he
    have hw := hworkers k
    split at hw
    · simp [step, hw, Worker.holds, Job.isLoop, Agenda.request, hl, Scheduler.move, Agenda.step,
        Agenda.loopStep, hint, hlate]
    · simp [step, hw, Worker.holds]
  | work k =>
    have hw := hworkers k
    split at hw
    · simp [step, hw, Worker.holds, Job.stays]
    · simp [step, hw, Worker.holds, Scheduler.pool, ThreadPool.step, Pool.work]
  | interrupt => simp [step, hlock]
  | notify woken => simp [step, Scheduler.pool, ThreadPool.step, hentering]
  | leave | stop => simp [step, Scheduler.move, Agenda.step, hlife]
  | notifyAll => simp [step, Scheduler.pool, ThreadPool.step, hdone]
  | construct | add time t | spurious k | close => cases he

theorem resting_ended (hworkers : ∀ k, s.threads.workers k = .ended)
    (hentering : s.threads.entering = 0) (hdone : s.threads.isDone) (htold : s.threads.told)
    (hlock : s.agenda.lock = .free) (hlife : s.agenda.life = .interrupted) : Resting now s := by
  intro e he
  cases e with
  | again k read => simp [step, hworkers k]
  | loop k read woken => simp [step, hworkers k, Worker.holds]
  | work k => simp [step, hworkers k, Worker.holds, Scheduler.pool, ThreadPool.step, Pool.work]
  | interrupt => simp [step, hlock]
  | notify woken => simp [step, Scheduler.pool, ThreadPool.step, hentering]
  | leave => simp [step, Scheduler.move, Agenda.step, hlife]
  | stop => simp [step, Scheduler.pool, ThreadPool.step, hdone]
  | notifyAll => simp [step, Scheduler.pool, ThreadPool.step, htold]
  | construct | add time t | spurious k | close => cases he

/-- **No task is missed.** Whatever the order of the steps was: once the threads of a living
scheduler have nothing left to do while the clock shows `now`, the loop sleeps on one thread, every
other one waits, and of each time up to `now` all tasks that were added have been started. -/
theorem due_started {es : List (Event n)} (hn : 2 ≤ n) (h : run step {} es = some s)
    (hc : s.constructed) (hlife : s.agenda.life = .alive) (hrest : Resting now s) :
    (∀ time, time ≤ now → valuesAt time s.agenda.added = valuesAt time s.agenda.given) ∧
      s.threads.started = .loop :: s.agenda.handed.map (·.task.job) ∧
      ∃ i, ∀ k, s.threads.workers k = if k = i then .running .loop else .waiting := by
  have hs := sound_run (by omega) h
  obtain ⟨hqueue, hlate, hdue, hworkers⟩ := rest_alive hs hrest hn hc hlife
  refine ⟨fun time htime => ?_, given_started hs hc hqueue, hworkers⟩
  have hnone : valuesAt time s.agenda.tasks.entries = [] :=
    valuesAt_eq_nil fun x hx => by have := hlate x hx; omega
  rw [hs.ordered.order time, hdue, hnone]
  simp

theorem due_started_two : ∃ s, run step {} twoTasks = some s ∧ Resting 6 s ∧
    (∀ time, time ≤ 6 → valuesAt time s.agenda.added = valuesAt time s.agenda.given) ∧
      s.threads.started = .loop :: s.agenda.handed.map (·.task.job) ∧
      ∃ i, ∀ k, s.threads.workers k = if k = i then .running .loop else .waiting := by
  obtain ⟨s, hs⟩ : ∃ s, run step {} twoTasks = some s := ⟨_, rfl⟩
  have hworkers : ∀ k, (run step {} twoTasks).map (·.threads.workers k) =
      some (if k = 0 then .running .loop else .waiting) := by
    intro k
    match k with
    | 0 => rfl
    | 1 => rfl
  have hthreads : (run step {} twoTasks).map (fun s =>
      (s.constructed, s.threads.entering, s.threads.isDone)) = some (true, 0, false) := by rfl
  have hagenda : (run step {} twoTasks).map (fun s =>
      (s.agenda.lock, s.agenda.life, s.agenda.loop, s.agenda.interrupted)) =
      some (.free, .alive, .sleeping (some 50), false) := by rfl
  simp only [hs, Option.map_some, Option.some.injEq, Prod.mk.injEq] at hworkers hthreads hagenda
  obtain ⟨hc, hentering, hdone⟩ := hthreads
  obtain ⟨hlock, hlife, hl, hint⟩ := hagenda
  have hrest : Resting 6 s :=
    resting_asleep hworkers hentering hdone hlock hlife hl hint (by decide)
  exact ⟨s, hs, hrest, due_started (by decide) hs hc hlife hrest⟩

/-- **The destructor.** Once it has begun and nothing is left to do, all threads have ended, each
task that was handed to the pool has been run, and each other one that was added is still there. -/
theorem destructor_drains {es : List (Event n)} (hn : 0 < n) (h : run step {} es = some s)
    (hc : s.constructed) (hlife : s.agenda.life ≠ .alive) (hrest : Resting now s) :
    (∀ k, s.threads.workers k = .ended) ∧
      s.threads.started = .loop :: s.agenda.handed.map (·.task.job) ∧
      ∀ time, valuesAt time s.agenda.added =
        valuesAt time s.agenda.given ++ valuesAt time s.agenda.tasks.entries := by
  have hs := sound_run hn h
  obtain ⟨hqueue, hreturned, hended⟩ := rest_destroyed hs hrest hc hlife
  refine ⟨hended, given_started hs hc hqueue, fun time => ?_⟩
  rw [hs.ordered.order time, hreturned]
  simp [Loop.due]

abbrev destroyed : List (Event 2) :=
  twoTasks ++ [.close, .leave, .loop t0 7 none, .loop t0 7 none, .loop t0 7 none, .loop t0 7 none,
    .stop, .notifyAll, .work t0, .work t0, .work t0, .work t1, .work t1]

theorem destructor_drains_two : ∃ s, run step {} destroyed = some s ∧ Resting 7 s ∧
    (∀ k, s.threads.workers k = .ended) ∧
      s.threads.started = .loop :: s.agenda.handed.map (·.task.job) ∧
      ∀ time, valuesAt time s.agenda.added =
        valuesAt time s.agenda.given ++ valuesAt time s.agenda.tasks.entries := by
  obtain ⟨s, hs⟩ : ∃ s, run step {} destroyed = some s := ⟨_, rfl⟩
  have hworkers : ∀ k, (run step {} destroyed).map (·.threads.workers k) = some .ended := by
    intro k
    match k with
    | 0 => rfl
    | 1 => rfl
  have hthreads : (run step {} destroyed).map (fun s =>
      (s.constructed, s.threads.entering, s.threads.isDone, s.threads.told)) =
      some (true, 0, true, true) := by rfl
  have hagenda : (run step {} destroyed).map (fun s => (s.agenda.lock, s.agenda.life)) =
      some (.free, .interrupted) := by rfl
  simp only [hs, Option.map_some, Option.some.injEq, Prod.mk.injEq] at hworkers hthreads hagenda
  obtain ⟨hc, hentering, hdone, htold⟩ := hthreads
  have hlife : s.agenda.life ≠ .alive := by rw [hagenda.2]; decide
  have hrest : Resting 7 s := resting_ended hworkers hentering hdone htold hagenda.1 hagenda.2
  exact ⟨s, hs, hrest, destructor_drains (by decide) hs hc hlife hrest⟩

end Owls.Bosma
