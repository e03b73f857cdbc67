import Owls.Promptness

/-!
# The scheduler does not spin

While the clock shows a time, the threads come to rest after a bounded number of steps: a task pays
for its way through the loop and the pool, and an interrupt for one round of the loop.
-/

open Machine

namespace Owls.Bosma

open ThreadPool (Pool Worker t0 t1)

variable {n : Nat} {a b : Agenda n} {s s' : Scheduler n} {e : Event n} {i : Fin n} {now : Nat}

/-! ## What the scheduler has still to do -/

def Job.isAgain : Job → Bool
  | .again _ => true
  | .loop | .task _ => false

def Loop.recurred : Loop → List (Nat × Task)
  | .pushing _ _ recurred | .notifying _ _ _ recurred => recurred.entries
  | .checking | .finding | .sleeping _ | .managing | .returned => []

/-- The pending tasks of the times up to `now`. -/
def Agenda.pending (a : Agenda n) (now : Nat) : Nat := a.tasks.entries.countP (·.1 ≤ now)

/-- The steps that the loop has before it until it sleeps, where `manage_tasks` is paid for by the
tasks that it finds, if it finds any. -/
def Loop.rank (pending : Nat) : Loop → Nat
  | .checking => 3
  | .finding => 2
  | .sleeping _ => 1
  | .managing => if pending = 0 then 5 else 0
  | .pushing _ _ _ | .notifying _ _ _ _ => 4
  | .returned => 0

def Lock.left : Lock n → Nat
  | .free | .managing => 1
  | .adding none => 7
  | .adding (some _) => 0

def Life.left (isDone : Bool) : Life → Nat
  | .alive => 0
  | .done => 7
  | .interrupted => if isDone then 0 else 1

def Agenda.left (a : Agenda n) (now : Nat) : Nat :=
  a.loop.rank (a.pending now) + 19 * a.pending now + 14 * a.loop.due.length +
    19 * a.loop.recurred.countP (·.1 ≤ now) + 5 * a.interrupted.toNat + a.lock.left

def Scheduler.left (s : Scheduler n) (now : Nat) : Nat :=
  s.agenda.left now + s.agenda.life.left s.threads.isDone + s.threads.left +
    7 * s.threads.pending Job.isAgain

/-- A task that comes again comes later. -/
def Later (now : Nat) (t : Task) : Prop := t.recur ∨ t.interval → now < t.getNewTime now

/-- The deadline of a sleep is the time of a task. -/
def Dated (a : Agenda n) : Prop :=
  ∀ time, a.loop = .sleeping (some time) → ∃ x ∈ a.tasks.entries, x.1 = time

theorem dated_step {m : Move n} (h : Dated a) (hb : a.step m = some b) : Dated b := by
  cases m with
  | add time t thread =>
    simp only [Agenda.step, Option.ite_none_right_eq_some, Option.some.injEq] at hb
    obtain ⟨-, rfl⟩ := hb
    intro time' hl
    obtain ⟨x, hx, rfl⟩ := h time' hl
    exact ⟨x, Multimap.mem_emplace.mpr (.inr hx), rfl⟩
  | interrupt =>
    simp only [Agenda.step] at hb
    split at hb
    · exact Option.some.inj hb ▸ h
    all_goals cases hb
  | loop now =>
    cases looped hb with
    | find hl hfree =>
      intro time hl
      exact Multimap.first?_mem (Loop.sleeping.inj hl)
    | check hl hlife | quit hl hlife | wake hl hwake | manage hl hfree | push hl | finish hl
    | notify hl =>
      intro time hl
      cases hl
  | close | leave =>
    simp only [Agenda.step, Option.ite_none_right_eq_some, Option.some.injEq] at hb
    exact hb.2 ▸ h

theorem pending_of_wake {deadline : Option Nat} (h : Dated a) (hl : a.loop = .sleeping deadline)
    (hwake : deadline.any (· ≤ now)) : a.pending now ≠ 0 := by
  cases deadline with
  | none => cases hwake
  | some time =>
    obtain ⟨x, hx, rfl⟩ := h time hl
    intro hzero
    have hlate := List.countP_eq_zero.mp hzero x hx
    simp only [Option.any_some] at hwake
    exact hlate hwake

theorem left_eq (now : Nat) {l : Loop} (hl : a.loop = l) : a.left now =
    l.rank (a.pending now) + 19 * a.pending now + 14 * l.due.length +
      19 * l.recurred.countP (·.1 ≤ now) + 5 * a.interrupted.toNat + a.lock.left := by
  rw [Agenda.left, hl]

theorem rank_managing (pending : Nat) :
    Loop.managing.rank pending ≤ 5 ∧ (pending ≠ 0 → Loop.managing.rank pending = 0) ∧
      (pending = 0 → Loop.managing.rank pending = 5) := by
  cases pending with
  | zero => exact ⟨le_rfl, fun h => absurd rfl h, fun _ => rfl⟩
  | succ pending => exact ⟨Nat.zero_le _, fun _ => rfl, fun h => absurd h (Nat.succ_ne_zero _)⟩

theorem wake_left {deadline : Option Nat} (hdated : Dated a) (hl : a.loop = .sleeping deadline)
    (hwake : a.interrupted ∨ deadline.any (· ≤ now)) :
    ({ a with interrupted := false, loop := .managing } : Agenda n).left now < a.left now := by
  have hafter : ({ a with interrupted := false, loop := .managing } : Agenda n).left now =
    Loop.managing.rank (a.pending now) + 19 * a.pending now + 0 + 0 + 0 + a.lock.left := rfl
  have hbefore : a.left now =
    1 + 19 * a.pending now + 0 + 0 + 5 * a.interrupted.toNat + a.lock.left :=
    left_eq now hl
  obtain ⟨hle, hsome, -⟩ := rank_managing (a.pending now)
  rcases hwake with hint | hwake
  · rw [hint, Bool.toNat_true] at hbefore
    omega
  · have hrank := hsome (pending_of_wake hdated hl hwake)
    omega

theorem manage_left (hl : a.loop = .managing) (hfree : a.lock = .free) :
    ({ a with
      lock := .managing
      tasks := a.tasks.after now
      loop := .pushing now (a.tasks.upTo now) {} } : Agenda n).left now < a.left now := by
  have hafter : ({ a with
      lock := .managing
      tasks := a.tasks.after now
      loop := .pushing now (a.tasks.upTo now) {} } : Agenda n).left now =
    4 + 19 * (a.tasks.after now).entries.countP (·.1 ≤ now) + 14 * (a.tasks.upTo now).length + 0 +
      5 * a.interrupted.toNat + 1 := rfl
  have hbefore : a.left now = Loop.managing.rank (a.pending now) + 19 * a.pending now + 0 + 0 +
    5 * a.interrupted.toNat + a.lock.left := left_eq now hl
  rw [Multimap.countP_after, Multimap.length_upTo] at hafter
  rw [hfree] at hbefore
  obtain ⟨-, hsome, hnone⟩ := rank_managing (a.pending now)
  change _ = 4 + 19 * 0 + 14 * a.pending now + 0 + _ + 1 at hafter
  change _ = _ + 1 at hbefore
  by_cases hzero : a.pending now = 0
  · have := hnone hzero
    omega
  · have := hsome hzero
    omega

theorem finish_left {read : Nat} {recurred : Multimap Nat Task}
    (hl : a.loop = .pushing read [] recurred) (hlock : a.lock = .managing) :
    ({ a with
      lock := .free
      tasks := a.tasks.emplaceAll recurred.entries
      added := a.added ++ recurred.entries
      loop := .checking } : Agenda n).left now < a.left now := by
  have hafter : ({ a with
      lock := .free
      tasks := a.tasks.emplaceAll recurred.entries
      added := a.added ++ recurred.entries
      loop := .checking } : Agenda n).left now =
    3 + 19 * (a.tasks.emplaceAll recurred.entries).entries.countP (·.1 ≤ now) + 0 + 0 +
      5 * a.interrupted.toNat + 1 := rfl
  have hbefore : a.left now = 4 + 19 * a.pending now + 0 +
    19 * recurred.entries.countP (·.1 ≤ now) + 5 * a.interrupted.toNat + a.lock.left :=
    left_eq now hl
  have hcount : (a.tasks.emplaceAll recurred.entries).entries.countP (·.1 ≤ now) =
      recurred.entries.countP (·.1 ≤ now) + a.pending now := by
    rw [(Multimap.emplaceAll_perm _).countP_eq, List.countP_append, Agenda.pending]
  rw [hlock] at hbefore
  change _ = _ + 1 at hbefore
  omega

theorem loop_left (now : Nat) {l : Loop} (hdue : l.due = a.loop.due)
    (hrecurred : l.recurred = a.loop.recurred)
    (hrank : l.rank (a.pending now) < a.loop.rank (a.pending now)) :
    ({ a with loop := l } : Agenda n).left now < a.left now := by
  have hafter : ({ a with loop := l } : Agenda n).left now = l.rank (a.pending now) +
    19 * a.pending now + 14 * l.due.length + 19 * l.recurred.countP (·.1 ≤ now) +
      5 * a.interrupted.toNat + a.lock.left := rfl
  have hbefore := left_eq (a := a) now rfl
  rw [hdue, hrecurred] at hafter
  omega

theorem quiet_left {woken : Option (Fin n)} (hdated : Dated a) (hordered : Ordered a)
    (hreq : a.request i woken = none) (hb : a.loopStep now = some b) : b.left now < a.left now := by
  cases looped hb with
  | check hl hlife | find hl hfree =>
    exact loop_left now (by rw [hl]; rfl) (by rw [hl]; rfl) (by rw [hl]; exact Nat.lt_succ_self _)
  | wake hl hwake => exact wake_left hdated hl hwake
  | manage hl hfree => exact manage_left hl hfree
  | finish hl => exact finish_left hl (hordered.locked.mp (by rw [hl]; rfl))
  | quit hl hlife => simp [Agenda.request, hl, hlife] at hreq
  | push hl | notify hl => simp [Agenda.request, hl] at hreq

theorem push_left (now : Nat) {read time : Nat} {t : Task} {due : List (Nat × Task)}
    {recurred : Multimap Nat Task} (hl : a.loop = .pushing read ((time, t) :: due) recurred) :
    ({ a with
      loop := .notifying read t due recurred
      handed := a.handed ++ [⟨read, time, t⟩] } : Agenda n).left now + 14 = a.left now := by
  have hafter : ({ a with
      loop := .notifying read t due recurred
      handed := a.handed ++ [⟨read, time, t⟩] } : Agenda n).left now =
    4 + 19 * a.pending now + 14 * due.length + 19 * recurred.entries.countP (·.1 ≤ now) +
      5 * a.interrupted.toNat + a.lock.left := rfl
  have hbefore : a.left now = 4 + 19 * a.pending now + 14 * (due.length + 1) +
    19 * recurred.entries.countP (·.1 ≤ now) + 5 * a.interrupted.toNat + a.lock.left :=
    left_eq now hl
  omega

theorem notify_left {read : Nat} {t : Task} {due : List (Nat × Task)}
    {recurred : Multimap Nat Task} (hlater : Later now t)
    (hl : a.loop = .notifying read t due recurred) :
    ({ a with
      loop := .pushing read due
        (if !t.interval && t.recur then recurred.emplace (t.getNewTime now) t else recurred) } :
      Agenda n).left now = a.left now := by
  have hcount : (if !t.interval && t.recur then recurred.emplace (t.getNewTime now) t
      else recurred).entries.countP (·.1 ≤ now) = recurred.entries.countP (·.1 ≤ now) := by
    split
    · rename_i hrecur
      have hlate := hlater (.inl (by simpa using (Bool.and_eq_true_iff.mp hrecur).2))
      rw [Multimap.emplace_perm.countP_eq, List.countP_cons_of_neg (by simpa using hlate)]
    · rfl
  have hbefore : a.left now = 4 + 19 * a.pending now + 14 * due.length +
    19 * recurred.entries.countP (·.1 ≤ now) + 5 * a.interrupted.toNat + a.lock.left :=
    left_eq now hl
  rw [hbefore, ← hcount]
  rfl

theorem rank_anti (l : Loop) {pending pending' : Nat} (h : pending ≤ pending') :
    l.rank pending' ≤ l.rank pending := by
  cases l with
  | managing =>
    obtain ⟨hle, hsome, -⟩ := rank_managing pending'
    obtain ⟨-, -, hnone⟩ := rank_managing pending
    by_cases hzero : pending' = 0
    · have := hnone (by omega)
      omega
    · have := hsome hzero
      omega
  | checking | finding | sleeping deadline | pushing read due recurred
  | notifying read t due recurred | returned => exact le_rfl

theorem add_left (now time : Nat) (t : Task) (thread : Option (Fin n)) (hfree : a.lock = .free) :
    ({ a with
      tasks := a.tasks.emplace time t
      added := a.added ++ [(time, t)]
      lock := .adding thread } : Agenda n).left now + 1 ≤
      a.left now + (Lock.adding thread).left + if time ≤ now then 19 else 0 := by
  have hcount : (a.tasks.emplace time t).entries.countP (·.1 ≤ now) =
      a.pending now + if time ≤ now then 1 else 0 := by
    rw [Multimap.emplace_perm.countP_eq, List.countP_cons, Agenda.pending]
    simp only [decide_eq_true_eq]
  have hafter : ({ a with
      tasks := a.tasks.emplace time t
      added := a.added ++ [(time, t)]
      lock := .adding thread } : Agenda n).left now =
    a.loop.rank ((a.tasks.emplace time t).entries.countP (·.1 ≤ now)) +
      19 * (a.tasks.emplace time t).entries.countP (·.1 ≤ now) + 14 * a.loop.due.length +
      19 * a.loop.recurred.countP (·.1 ≤ now) + 5 * a.interrupted.toNat +
      (Lock.adding thread).left := rfl
  have hbefore := left_eq (a := a) now rfl
  rw [hfree] at hbefore
  change _ = _ + 1 at hbefore
  rw [hcount] at hafter
  have hrank := rank_anti a.loop (Nat.le_add_right (a.pending now) (if time ≤ now then 1 else 0))
  by_cases htime : time ≤ now
  · rw [if_pos htime] at hafter hrank ⊢
    omega
  · rw [if_neg htime] at hafter hrank ⊢
    omega

theorem interrupt_left (now : Nat) {thread : Option (Fin n)}
    (hlock : a.lock = .adding thread) :
    ({ a with interrupted := true, lock := .free } : Agenda n).left now +
      (Lock.adding thread).left ≤ a.left now + 6 := by
  have hafter : ({ a with interrupted := true, lock := .free } : Agenda n).left now =
    a.loop.rank (a.pending now) + 19 * a.pending now + 14 * a.loop.due.length +
      19 * a.loop.recurred.countP (·.1 ≤ now) + 5 + 1 := rfl
  have hbefore := left_eq (a := a) now rfl
  rw [hlock] at hbefore
  omega

theorem leave_left (now : Nat) :
    ({ a with interrupted := true, life := .interrupted } : Agenda n).left now ≤
      a.left now + 5 := by
  have hafter : ({ a with interrupted := true, life := .interrupted } : Agenda n).left now =
    a.loop.rank (a.pending now) + 19 * a.pending now + 14 * a.loop.due.length +
      19 * a.loop.recurred.countP (·.1 ≤ now) + 5 + a.lock.left := rfl
  have hbefore := left_eq (a := a) now rfl
  omega

/-! ## The tasks that come again -/

/-- Every task of the agenda that comes again comes later. -/
structure Periodic (now : Nat) (a : Agenda n) : Prop where
  tasks : ∀ x ∈ a.tasks.entries, Later now x.2
  due : ∀ x ∈ a.loop.due, Later now x.2
  recurred : ∀ x ∈ a.loop.recurred, Later now x.2
  noted : ∀ read t due recurred, a.loop = .notifying read t due recurred → Later now t
  handed : ∀ g ∈ a.handed, Later now g.task

theorem periodic_start : Periodic now ({} : Agenda n) := ⟨nofun, nofun, nofun, nofun, nofun⟩

theorem periodic_same {loop : Loop} {lock : Lock n} {life : Life} {interrupted : Bool}
    (h : Periodic now a) (hdue : loop.due = []) (hrecurred : loop.recurred = [])
    (hnoted : ∀ read t due recurred, loop ≠ .notifying read t due recurred) :
    Periodic now { a with loop, lock, life, interrupted } :=
  ⟨h.tasks, by simp [hdue], by simp [hrecurred], fun read t due recurred hl =>
    absurd hl (hnoted read t due recurred), h.handed⟩

theorem periodic_loop {read : Nat} (h : Periodic now a) (hb : a.loopStep read = some b) :
    Periodic now b := by
  cases looped hb with
  | check hl hlife | quit hl hlife | find hl hfree | wake hl hwake =>
    exact periodic_same h rfl rfl nofun
  | manage hl hfree =>
    have hall {x : Nat × Task} (hx : x ∈ a.tasks.upTo read ++ (a.tasks.after read).entries) :
        Later now x.2 := h.tasks x (by rwa [Multimap.upTo_append_after] at hx)
    exact ⟨fun x hx => hall (List.mem_append_right _ hx),
      fun x hx => hall (List.mem_append_left _ hx), nofun, nofun, h.handed⟩
  | push hl =>
    have hdue := h.due
    have hrecurred := h.recurred
    rw [hl] at hdue hrecurred
    refine ⟨h.tasks, fun x hx => hdue x (List.mem_cons_of_mem _ hx), hrecurred, ?_, fun g hg => ?_⟩
    · rintro _ _ _ _ ⟨⟩
      exact hdue _ (List.mem_cons_self ..)
    · rcases List.mem_append.mp hg with hg | hg
      · exact h.handed g hg
      · rw [List.mem_singleton] at hg
        exact hg ▸ hdue _ (List.mem_cons_self ..)
  | finish hl =>
    have hrecurred := h.recurred
    rw [hl] at hrecurred
    refine ⟨fun x hx => ?_, nofun, nofun, nofun, h.handed⟩
    rcases List.mem_append.mp ((Multimap.emplaceAll_perm _).mem_iff.mp hx) with hx | hx
    · exact hrecurred x hx
    · exact h.tasks x hx
  | notify hl =>
    have hdue := h.due
    have hrecurred := h.recurred
    rw [hl] at hdue hrecurred
    refine ⟨h.tasks, hdue, fun x hx => ?_, nofun, h.handed⟩
    simp only [Loop.recurred] at hx
    split at hx
    · rcases Multimap.mem_emplace.mp hx with rfl | hx
      · exact h.noted _ _ _ _ hl
      · exact hrecurred x hx
    · exact hrecurred x hx

theorem periodic_move {m : Move n} (h : Periodic now a)
    (hadd : ∀ time t thread, m = .add time t thread → Later now t) (hb : a.step m = some b) :
    Periodic now b := by
  cases m with
  | add time t thread =>
    simp only [Agenda.step, Option.ite_none_right_eq_some, Option.some.injEq] at hb
    obtain ⟨-, rfl⟩ := hb
    refine ⟨fun x hx => ?_, h.due, h.recurred, h.noted, h.handed⟩
    rcases Multimap.mem_emplace.mp hx with rfl | hx
    · exact hadd time t thread rfl
    · exact h.tasks x hx
  | interrupt =>
    simp only [Agenda.step] at hb
    split at hb
    · exact Option.some.inj hb ▸ ⟨h.tasks, h.due, h.recurred, h.noted, h.handed⟩
    all_goals cases hb
  | loop read => exact periodic_loop h hb
  | close | leave =>
    simp only [Agenda.step, Option.ite_none_right_eq_some, Option.some.injEq] at hb
    exact hb.2 ▸ ⟨h.tasks, h.due, h.recurred, h.noted, h.handed⟩

/-- What keeps the scheduler's work bounded while the clock shows `now`. -/
structure Steady (now : Nat) (s : Scheduler n) : Prop where
  sound : Sound s
  dated : Dated s.agenda
  periodic : Periodic now s.agenda
  held : ThreadPool.Held s.threads

theorem steady_start : Steady now ({} : Scheduler n) :=
  ⟨sound_start, nofun, periodic_start, by rintro i j (h | h) <;> cases h⟩

theorem later_again {t : Task} (h : Steady now s) (hw : s.threads.workers i = .running (.again t)) :
    now < t.getNewTime now := by
  have hmem : Job.again t ∈ s.threads.pushed := by
    rw [h.sound.live.order]
    exact List.mem_append_left _ (h.held i _ (.inl hw))
  rcases h.sound.placed.jobs with ⟨hnone, -⟩ | hjobs
  · rw [hnone] at hmem
    cases hmem
  · rw [hjobs, List.mem_cons, List.mem_map] at hmem
    rcases hmem with hloop | ⟨g, hg, hjob⟩
    · cases hloop
    · have hlater := h.periodic.handed g hg
      unfold Task.job at hjob
      split at hjob
      · rename_i hinterval
        cases hjob
        exact hlater (.inr hinterval)
      · cases hjob

/-- The events of a time at which the clock shows `now`, with tasks that come again later. -/
def Event.At (now : Nat) : Event n → Prop
  | .loop _ read _ | .again _ read => read = now
  | .add _ t => Later now t
  | .construct | .interrupt | .work _ | .notify _ | .spurious _ | .close | .leave | .stop
  | .notifyAll => True

theorem steady_step (hn : 0 < n) (h : Steady now s) (hadd : ∀ time t, e = .add time t → Later now t)
    (hs : step s e = some s') : Steady now s' := by
  obtain ⟨hmoved, hpooled⟩ := step_parts hs
  have hagenda : Dated s'.agenda ∧ Periodic now s'.agenda := by
    rcases hmoved with hsame | ⟨m, hm, hadds⟩
    · exact hsame ▸ ⟨h.dated, h.periodic⟩
    · refine ⟨dated_step h.dated hm, periodic_move h.periodic (fun time t thread hmt => ?_) hm⟩
      rcases hadds time t thread hmt with he | ⟨i, hi⟩
      · exact hadd time t he
      · exact fun _ => later_again h hi
  have hheld : ThreadPool.Held s'.threads := by
    rcases hpooled with hsame | ⟨pe, hpe⟩
    · exact hsame ▸ h.held
    · exact ThreadPool.held_keep h.held hpe
  exact ⟨sound_step hn h.sound hs, hagenda.1, hagenda.2, hheld⟩

/-! ## A bound for the steps -/

variable {p' : Pool Job n} {pe : ThreadPool.Event Job n}

theorem isAgain_of_stays {w : Worker Job} (h : w.holds Job.stays = false) :
    w.holds Job.isAgain = false := by
  cases w with
  | running j | pushing j => cases j <;> first | rfl | cases h
  | popping | testing | tested | waiting | ended => rfl

theorem pool_left (hn : 0 < n) (h : Steady now s) (hown : pe.own)
    (hstay : ∀ i, pe = .work i → (s.threads.workers i).holds Job.isAgain = false)
    (hp : ThreadPool.step s.threads pe = some p') :
    p'.left + 7 * p'.pending Job.isAgain < s.threads.left + 7 * s.threads.pending Job.isAgain ∧
      p'.isDone = s.threads.isDone := by
  have hleft := ThreadPool.own_left hown hp
  have hpending := ThreadPool.pending_step hp h.sound.live
    (ThreadPool.live_step hn h.sound.live hp) hstay
  have hposted : pe.posted = none := by
    cases pe <;> first | rfl | cases hown
  rw [hposted] at hpending
  refine ⟨by simp only [Option.toList_none, List.countP_nil] at hpending; omega, ?_⟩
  rcases ThreadPool.step_isDone hp with hdone | rfl
  · exact hdone
  · cases hown

theorem push_pending (t : Task) : [t.job].countP Job.isAgain ≤ 1 := List.countP_le_length

theorem request_left {woken : Option (Fin n)} (hn : 0 < n) (h : Steady now s)
    (hi : (s.threads.workers i).holds Job.isLoop) (hreq : s.agenda.request i woken = some pe)
    (hb : s.agenda.loopStep now = some b) (hp : ThreadPool.step s.threads pe = some p') :
    b.left now + p'.left + 7 * p'.pending Job.isAgain <
      s.agenda.left now + s.threads.left + 7 * s.threads.pending Job.isAgain ∧
    p'.isDone = s.threads.isDone ∧ b.life = s.agenda.life := by
  cases looped hb with
  | quit hl hlife =>
    simp only [Agenda.request, hl, hlife, if_false, Option.some.injEq] at hreq
    subst hreq
    have hw := running_loop hi (by rw [h.sound.placed.phase i hi, hl]; rfl)
    obtain ⟨hpool, hdone⟩ := pool_left hn h rfl (fun k hk => by cases hk; rw [hw]; rfl) hp
    have hagenda := loop_left (a := s.agenda) now (l := .returned) (by rw [hl]; rfl)
      (by rw [hl]; rfl) (by rw [hl]; exact Nat.succ_pos _)
    exact ⟨by omega, hdone, rfl⟩
  | @push read time t due recurred hl =>
    simp only [Agenda.request, hl, Option.some.injEq] at hreq
    subst hreq
    have hagenda := push_left now hl
    have hpool := ThreadPool.other_left rfl hp
    have hpending := ThreadPool.pending_step (P := Job.isAgain) hp h.sound.live
      (ThreadPool.live_step hn h.sound.live hp) fun k hk => by cases hk
    have hone := push_pending t
    change _ = _ + [t.job].countP _ at hpending
    refine ⟨by omega, ?_, rfl⟩
    rcases ThreadPool.step_isDone hp with hdone | hdone
    · exact hdone
    · cases hdone
  | @notify read t due recurred hl =>
    simp only [Agenda.request, hl, Option.some.injEq] at hreq
    subst hreq
    obtain ⟨hpool, hdone⟩ := pool_left hn h rfl (fun k hk => by cases hk) hp
    have hagenda := notify_left (h.periodic.noted read t due recurred hl) hl
    exact ⟨by omega, hdone, rfl⟩
  | check hl hlife => simp [Agenda.request, hl, hlife] at hreq
  | find hl hfree | wake hl hwake | manage hl hfree | finish hl =>
    simp [Agenda.request, hl] at hreq

theorem left_pool (hn : 0 < n) (h : Steady now s) (hown : pe.own)
    (hstay : ∀ i, pe = .work i → (s.threads.workers i).holds Job.isAgain = false)
    (hs : s.pool pe = some s') : s'.left now < s.left now := by
  obtain ⟨hp, hagenda⟩ := pool_some hs
  obtain ⟨hpool, hdone⟩ := pool_left hn h hown hstay hp
  simp only [Scheduler.left, hagenda, hdone]
  omega

theorem left_interrupt (h : Steady now s) (hs : step s .interrupt = some s') :
    s'.left now < s.left now := by
  rcases interrupt_some hs with ⟨hlock, hmove⟩ | ⟨i, hlock, hboth⟩
  · obtain ⟨hm, hthreads⟩ := move_some hmove
    simp only [Agenda.step, hlock, Option.some.injEq] at hm
    have hagenda := interrupt_left now hlock
    rw [hm] at hagenda
    change _ + 7 ≤ _ at hagenda
    have hlife : s'.agenda.life = s.agenda.life := by rw [← hm]
    simp only [Scheduler.left, hthreads, hlife]
    omega
  · obtain ⟨s₁, hmove, hpool⟩ := Option.bind_eq_some_iff.mp hboth
    obtain ⟨hm, hthreads⟩ := move_some hmove
    obtain ⟨hp, hsame⟩ := pool_some hpool
    obtain ⟨t, ht⟩ := h.sound.placed.adding i hlock
    simp only [Agenda.step, hlock, Option.some.injEq] at hm
    have hagenda := interrupt_left now hlock
    rw [hm, ← hsame] at hagenda
    change _ + 0 ≤ _ at hagenda
    have hlife : s'.agenda.life = s.agenda.life := by rw [hsame, ← hm]
    rw [hthreads] at hp
    have hleft := ThreadPool.own_left rfl hp
    -- The interval task has returned.
    simp only [ThreadPool.step, Pool.work, ht, Option.some.injEq] at hp
    have hcount : s'.threads.count (Worker.holds Job.isAgain) + 1 =
        s.threads.count (Worker.holds Job.isAgain) + 0 :=
      hp ▸ ThreadPool.put_count _ ht
    have hqueue : s'.threads.queue = s.threads.queue := by rw [← hp, ThreadPool.put_queue]
    have hdone : s'.threads.isDone = s.threads.isDone := by rw [← hp, ThreadPool.put_isDone]
    simp only [Scheduler.left, Pool.pending, hlife, hqueue, hdone]
    omega

theorem left_loop {woken : Option (Fin n)} (hn : 0 < n) (h : Steady now s)
    (hs : step s (.loop i now woken) = some s') : s'.left now < s.left now := by
  obtain ⟨hi, ⟨hreq, hmove⟩ | ⟨pe, hreq, hboth⟩⟩ := loop_some hs
  · obtain ⟨hm, hthreads⟩ := move_some hmove
    have hagenda := quiet_left h.dated h.sound.ordered hreq hm
    obtain ⟨-, -, -, hlife, -⟩ := loop_quiet hreq hm
    simp only [Scheduler.left, hthreads, hlife]
    omega
  · obtain ⟨s₁, hmove, hpool⟩ := Option.bind_eq_some_iff.mp hboth
    obtain ⟨hm, hthreads⟩ := move_some hmove
    obtain ⟨hp, hagenda⟩ := pool_some hpool
    obtain ⟨hleft, hdone, hlife⟩ := request_left hn h hi hreq hm (hthreads ▸ hp)
    simp only [Scheduler.left, hagenda, hdone, hlife]
    omega

theorem left_add {time : Nat} {t : Task} {thread : Option (Fin n)} (now : Nat)
    (hmove : s.move (.add time t thread) = some s') :
    s'.left now + 1 ≤
      s.left now + (Lock.adding thread).left + if time ≤ now then 19 else 0 := by
  obtain ⟨hm, hthreads⟩ := move_some hmove
  simp only [Agenda.step, Option.ite_none_right_eq_some, Option.some.injEq] at hm
  obtain ⟨hfree, hm⟩ := hm
  have hagenda := add_left now time t thread hfree
  rw [hm] at hagenda
  have hlife : s'.agenda.life = s.agenda.life := by rw [← hm]
  simp only [Scheduler.left, hthreads, hlife]
  omega

theorem left_leave (hs : s.move .leave = some s') : s'.left now < s.left now := by
  obtain ⟨hm, hthreads⟩ := move_some hs
  simp only [Agenda.step, Option.ite_none_right_eq_some, Option.some.injEq] at hm
  obtain ⟨hdone, hm⟩ := hm
  have hagenda := leave_left (a := s.agenda) now
  rw [hm] at hagenda
  have hlife : s'.agenda.life = .interrupted := by rw [← hm]
  have hle : Life.interrupted.left s.threads.isDone ≤ 1 := by
    cases s.threads.isDone <;> decide
  have hseven : Life.done.left s.threads.isDone = 7 := rfl
  simp only [Scheduler.left, hthreads, hlife, hdone]
  omega

theorem left_stop (hlife : s.agenda.life = .interrupted) (hs : s.pool .done = some s') :
    s'.left now < s.left now := by
  obtain ⟨hp, hagenda⟩ := pool_some hs
  simp only [ThreadPool.step, Option.ite_none_left_eq_some, Option.some.injEq, not_or,
    Bool.not_eq_true] at hp
  obtain ⟨⟨hopen, -⟩, hp⟩ := hp
  have hleft : s'.threads.left = s.threads.left := by rw [← hp]; rfl
  have hpending : s'.threads.pending Job.isAgain = s.threads.pending Job.isAgain := by
    rw [← hp]; rfl
  have hdone : s'.threads.isDone = true := by rw [← hp]
  simp only [Scheduler.left, hagenda, hlife, hleft, hpending, hdone, hopen, Life.left, if_true,
    Bool.false_eq_true, if_false]
  omega

theorem left_own (hn : 0 < n) (h : Steady now s) (hown : e.own now) (hs : step s e = some s') :
    s'.left now < s.left now := by
  cases e with
  | again i read =>
    obtain rfl : read = now := by simpa [Event.own] using hown
    obtain ⟨t, ht, hmove⟩ := again_some hs
    have hleft := left_add read hmove
    rw [if_neg (Nat.not_le.mpr (later_again h ht))] at hleft
    exact hleft
  | interrupt => exact left_interrupt h hs
  | loop i read woken =>
    obtain rfl : read = now := by simpa [Event.own] using hown
    exact left_loop hn h hs
  | work i =>
    simp only [step, Option.ite_none_left_eq_some, Bool.not_eq_true] at hs
    refine left_pool hn h rfl (fun k hk => ?_) hs.2
    cases hk
    exact isAgain_of_stays hs.1
  | notify woken => exact left_pool hn h rfl (fun k hk => by cases hk) hs
  | notifyAll => exact left_pool hn h rfl (fun k hk => by cases hk) hs
  | leave => exact left_leave hs
  | stop =>
    simp only [step, Option.ite_none_right_eq_some] at hs
    exact left_stop hs.1 hs.2
  | construct | add time t | spurious k | close => cases hown

theorem left_given (hn : 0 < n) (h : Steady now s) (hpe : pe.own = false) (hnodone : pe ≠ .done)
    (hposted : pe.posted.toList.countP Job.isAgain = 0) (hwork : ∀ i, pe ≠ .work i)
    (hs : s.pool pe = some s') : s'.left now ≤ s.left now + 25 := by
  obtain ⟨hp, hagenda⟩ := pool_some hs
  have hleft := ThreadPool.other_left hpe hp
  have hpending := ThreadPool.pending_step (P := Job.isAgain) hp h.sound.live
    (ThreadPool.live_step hn h.sound.live hp) fun k hk => absurd hk (hwork k)
  have hdone := (ThreadPool.step_isDone hp).resolve_right hnodone
  simp only [Scheduler.left, hagenda, hdone]
  omega

theorem left_close (hs : s.move .close = some s') : s'.left now ≤ s.left now + 25 := by
  obtain ⟨hm, hthreads⟩ := move_some hs
  simp only [Agenda.step, Option.ite_none_right_eq_some, Option.some.injEq] at hm
  obtain ⟨-, hm⟩ := hm
  have hleft : s'.agenda.left now = s.agenda.left now := by rw [← hm]; rfl
  have hlife : s'.agenda.life.left s.threads.isDone = 7 := by rw [← hm]; rfl
  simp only [Scheduler.left, hthreads, hleft, hlife]
  omega

theorem left_other (hn : 0 < n) (h : Steady now s) (hown : e.own now = false) (hat : e.At now)
    (hs : step s e = some s') : s'.left now ≤ s.left now + 25 := by
  cases e with
  | construct =>
    simp only [step, Option.ite_none_right_eq_some] at hs
    exact left_given hn h rfl (by simp) rfl (fun k hk => by cases hk) hs.2
  | spurious i => exact left_given hn h rfl (by simp) rfl (fun k hk => by cases hk) hs
  | add time t =>
    simp only [step, Option.ite_none_right_eq_some] at hs
    have hleft := left_add now hs.2
    change _ ≤ _ + 7 + _ at hleft
    have hle : (if time ≤ now then 19 else 0) ≤ 19 := by split <;> omega
    omega
  | close =>
    simp only [step, Option.ite_none_right_eq_some] at hs
    exact left_close hs.2
  | loop i read woken | again i read =>
    have hread : read = now := hat
    simp [Event.own, hread] at hown
  | interrupt | work i | notify woken | leave | stop | notifyAll => cases hown

/-- **The scheduler does not spin.** Where every task that comes again comes later than `now`, from
every state that the scheduler reaches and while the clock shows `now`, the steps that the threads
take by themselves are bounded by a number that depends on this state, and by 25 for each other
step: a task that is added, a spurious wake-up, the destructor's first. -/
theorem steps_bounded {es : List (Event n)} (hn : 0 < n) (h : run step {} es = some s)
    (hes : ∀ time t, .add time t ∈ es → Later now t) :
    ∃ bound, ∀ fs s', (∀ e ∈ fs, e.At now) → run step s fs = some s' →
      fs.countP (·.own now) ≤ bound + 25 * fs.countP (!·.own now) := by
  have hall : Always step (Steady now) ({} : Scheduler n) es := by
    refine always_of_prefix steady_start fun p e hpe t u _ hu ht => ?_
    refine steady_step hn ht (fun time t' he => ?_) hu
    have hmem : e ∈ es := hpe.subset (List.mem_append_right _ (List.mem_singleton_self e))
    exact hes time t' (he ▸ hmem)
  have hsteady := hall.here h
  refine ⟨s.left now, fun fs s' hfs h' => ?_⟩
  have hadd {e : Event n} (hat : e.At now) (time : Nat) (t : Task) (he : e = .add time t) :
      Later now t := by
    subst he
    exact hat
  have hcount : fs.countP (·.own now) + s'.left now ≤
      s.left now + 25 * fs.countP (!·.own now) :=
    countP_own_le (J := Steady now) (G := Event.At now)
      (fun t e u ht hat hu => steady_step hn ht (hadd hat) hu)
      (fun t e u ht hat hown hu => left_own hn ht hown hu)
      (fun t e u ht hat hown hu => left_other hn ht hown hat hu) hsteady hfs h'
  omega

/-- `EveryTask`. -/
def everyTask (f period : Nat) (interval : Bool) : Task :=
  { f, recur := true, interval, getNewTime := (· + period) }

theorem later_everyTask {f period : Nat} {interval : Bool} (h : 0 < period) :
    Later now (everyTask f period interval) := fun _ => Nat.lt_add_of_pos_right h

/-- A recurring task and one with an interval, which are due at 6 and are added again. -/
abbrev periodicTasks : List (Event 2) :=
  [.construct, .work t0, .notify none, .work t1, .work t1, .work t1, .loop t0 0 none,
    .loop t0 0 none, .add 5 (everyTask 1 10 false), .interrupt, .add 5 (everyTask 2 20 true),
    .interrupt, .loop t0 6 none, .loop t0 6 none, .loop t0 6 none, .loop t0 6 (some t1),
    .loop t0 6 none, .loop t0 6 none, .loop t0 6 none, .work t1, .work t1, .work t1, .again t1 6,
    .interrupt]

theorem steps_bounded_periodic : ∃ s, run step {} periodicTasks = some s ∧
    s.agenda.tasks.entries.map (·.1) = [16, 26] ∧
    ∃ bound, ∀ fs s', (∀ e ∈ fs, e.At 6) → run step s fs = some s' →
      fs.countP (·.own 6) ≤ bound + 25 * fs.countP (!·.own 6) := by
  obtain ⟨s, hs⟩ : ∃ s, run step {} periodicTasks = some s := ⟨_, rfl⟩
  have htasks : (run step {} periodicTasks).map (·.agenda.tasks.entries.map (·.1)) =
      some [16, 26] := rfl
  rw [hs] at htasks
  refine ⟨s, hs, Option.some.inj htasks, steps_bounded (by decide) hs fun time t ht => ?_⟩
  simp only [List.mem_cons, List.not_mem_nil, reduceCtorEq, Event.add.injEq, false_or,
    or_false] at ht
  rcases ht with ⟨-, rfl⟩ | ⟨-, rfl⟩ <;> exact later_everyTask (by decide)

end Owls.Bosma
