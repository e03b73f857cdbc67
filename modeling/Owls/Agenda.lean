import Owls.Base.Machine
import Owls.Base.Multimap

/-!
# The agenda of the scheduler

The tasks of `Bosma::Scheduler` by their time, and its loop, which sleeps until the first of them.
The `Agenda` is what the mutex of the tasks and the sleeper protect; it changes only by its own
moves, and asks the thread pool for what it needs.
-/

namespace Owls.Bosma

variable {n : Nat}

structure Task where
  f : Nat
  recur : Bool := false
  interval : Bool := false
  /-- `get_new_time`, at a reading of the clock. -/
  getNewTime : Nat → Nat := fun _ => 0

/-! ## The agenda -/

/-- Who holds the mutex of the tasks. -/
inductive Lock (n : Nat) where
  | free
  /-- A thread of the pool, or another one, in `add_task` before its `interrupt`. -/
  | adding (thread : Option (Fin n))
  | managing
deriving DecidableEq

/-- How far the loop is. -/
inductive Loop where
  | checking
  | finding
  | sleeping (deadline : Option Nat)
  | managing
  /-- In `manage_tasks`, with what is still to be pushed and what is to be added again. -/
  | pushing (now : Nat) (due : List (Nat × Task)) (recurred : Multimap Nat Task)
  | notifying (now : Nat) (t : Task) (due : List (Nat × Task)) (recurred : Multimap Nat Task)
  | returned

/-- How far the destructor is. -/
inductive Life where
  | alive
  | done
  | interrupted
deriving DecidableEq

/-- A task of this time, pushed by the `manage_tasks` that read the clock as `now`. -/
structure Handover where
  now : Nat
  time : Nat
  task : Task

structure Agenda (n : Nat) where
  tasks : Multimap Nat Task := {}
  lock : Lock n := .free
  interrupted : Bool := false
  loop : Loop := .checking
  life : Life := .alive
  /-- All that was put into the tasks, in this order. -/
  added : List (Nat × Task) := []
  /-- All that was pushed, in this order. -/
  handed : List Handover := []

inductive Move (n : Nat) where
  | add (time : Nat) (t : Task) (thread : Option (Fin n))
  /-- The end of `add_task`. -/
  | interrupt
  /-- The next step of the loop, at a reading of the clock. -/
  | loop (now : Nat)
  /-- `~Scheduler` sets `done`. -/
  | close
  /-- `~Scheduler` interrupts the sleeper. -/
  | leave

/-- Nobody looks at the tasks while `manage_tasks` holds their mutex, so that what it erases at its
end can leave them at once. -/
def Agenda.loopStep (a : Agenda n) (now : Nat) : Option (Agenda n) :=
  match a.loop with
  | .checking => some { a with loop := if a.life = .alive then .finding else .returned }
  | .finding =>
    if a.lock = .free then some { a with loop := .sleeping a.tasks.first? } else none
  | .sleeping deadline =>
    if a.interrupted ∨ deadline.any (· ≤ now) then
      some { a with interrupted := false, loop := .managing }
    else none
  | .managing =>
    if a.lock = .free then
      some { a with
        lock := .managing
        tasks := a.tasks.after now
        loop := .pushing now (a.tasks.upTo now) {} }
    else none
  | .pushing read ((time, t) :: due) recurred =>
    some { a with loop := .notifying read t due recurred, handed := a.handed ++ [⟨read, time, t⟩] }
  | .pushing _ [] recurred =>
    some { a with
      lock := .free
      tasks := a.tasks.emplaceAll recurred.entries
      added := a.added ++ recurred.entries
      loop := .checking }
  | .notifying read t due recurred =>
    some { a with
      loop := .pushing read due
        (if !t.interval && t.recur then recurred.emplace (t.getNewTime now) t else recurred) }
  | .returned => none

def Agenda.step (a : Agenda n) : Move n → Option (Agenda n)
  | .add time t thread =>
    if a.lock = .free then
      some { a with
        tasks := a.tasks.emplace time t
        added := a.added ++ [(time, t)]
        lock := .adding thread }
    else none
  | .interrupt =>
    match a.lock with
    | .adding _ => some { a with interrupted := true, lock := .free }
    | .free | .managing => none
  | .loop now => a.loopStep now
  | .close => if a.life = .alive then some { a with life := .done } else none
  | .leave =>
    if a.life = .done then some { a with interrupted := true, life := .interrupted } else none

/-! ## A step of the loop -/

variable {a b : Agenda n} {m : Move n} {now : Nat}

/-- What a step of the loop can do. -/
inductive Looped (a : Agenda n) (now : Nat) : Agenda n → Prop where
  | check (hl : a.loop = .checking) (hlife : a.life = .alive) :
    Looped a now { a with loop := .finding }
  | quit (hl : a.loop = .checking) (hlife : a.life ≠ .alive) :
    Looped a now { a with loop := .returned }
  | find (hl : a.loop = .finding) (hfree : a.lock = .free) :
    Looped a now { a with loop := .sleeping a.tasks.first? }
  | wake {deadline : Option Nat} (hl : a.loop = .sleeping deadline)
    (hwake : a.interrupted ∨ deadline.any (· ≤ now)) :
    Looped a now { a with interrupted := false, loop := .managing }
  | manage (hl : a.loop = .managing) (hfree : a.lock = .free) :
    Looped a now { a with
      lock := .managing
      tasks := a.tasks.after now
      loop := .pushing now (a.tasks.upTo now) {} }
  | push {read time : Nat} {t : Task} {due : List (Nat × Task)} {recurred : Multimap Nat Task}
    (hl : a.loop = .pushing read ((time, t) :: due) recurred) :
    Looped a now { a with
      loop := .notifying read t due recurred
      handed := a.handed ++ [⟨read, time, t⟩] }
  | finish {read : Nat} {recurred : Multimap Nat Task} (hl : a.loop = .pushing read [] recurred) :
    Looped a now { a with
      lock := .free
      tasks := a.tasks.emplaceAll recurred.entries
      added := a.added ++ recurred.entries
      loop := .checking }
  | notify {read : Nat} {t : Task} {due : List (Nat × Task)} {recurred : Multimap Nat Task}
    (hl : a.loop = .notifying read t due recurred) :
    Looped a now { a with
      loop := .pushing read due
        (if !t.interval && t.recur then recurred.emplace (t.getNewTime now) t else recurred) }

theorem looped (hb : a.loopStep now = some b) : Looped a now b := by
  unfold Agenda.loopStep at hb
  cases hl : a.loop with
  | checking =>
    simp only [hl, Option.some.injEq] at hb
    subst hb
    by_cases hlife : a.life = .alive
    · simpa only [hlife, if_true] using Looped.check hl hlife
    · simpa only [hlife, if_false] using Looped.quit hl hlife
  | finding =>
    simp only [hl, Option.ite_none_right_eq_some, Option.some.injEq] at hb
    exact hb.2 ▸ .find hl hb.1
  | sleeping deadline =>
    simp only [hl, Option.ite_none_right_eq_some, Option.some.injEq] at hb
    exact hb.2 ▸ .wake hl hb.1
  | managing =>
    simp only [hl, Option.ite_none_right_eq_some, Option.some.injEq] at hb
    exact hb.2 ▸ .manage hl hb.1
  | pushing read due recurred =>
    cases due with
    | nil =>
      simp only [hl, Option.some.injEq] at hb
      exact hb ▸ .finish hl
    | cons x due =>
      simp only [hl, Option.some.injEq] at hb
      exact hb ▸ .push hl
  | notifying read t due recurred =>
    simp only [hl, Option.some.injEq] at hb
    exact hb ▸ .notify hl
  | returned => simp [hl] at hb

/-! ## Every task once, and none before its time -/

/-- What `manage_tasks` has still to push. -/
def Loop.due : Loop → List (Nat × Task)
  | .pushing _ due _ | .notifying _ _ due _ => due
  | .checking | .finding | .sleeping _ | .managing | .returned => []

/-- The clock as `manage_tasks` read it. -/
def Loop.read : Loop → Nat
  | .pushing now _ _ | .notifying now _ _ _ => now
  | .checking | .finding | .sleeping _ | .managing | .returned => 0

def Loop.inManage : Loop → Bool
  | .pushing _ _ _ | .notifying _ _ _ _ => true
  | .checking | .finding | .sleeping _ | .managing | .returned => false

def Agenda.given (a : Agenda n) : List (Nat × Task) := a.handed.map fun h => (h.time, h.task)

/-- Of each time, the tasks leave in the order in which they were added. -/
structure Ordered (a : Agenda n) : Prop where
  order : ∀ time, valuesAt time a.added =
    valuesAt time a.given ++ valuesAt time a.loop.due ++ valuesAt time a.tasks.entries
  early : ∀ h ∈ a.handed, h.time ≤ h.now
  due : ∀ x ∈ a.loop.due, x.1 ≤ a.loop.read
  locked : a.loop.inManage = true ↔ a.lock = .managing

theorem ordered_start : Ordered ({} : Agenda n) :=
  ⟨fun _ => rfl, nofun, nofun, by simp [Loop.inManage]⟩

theorem ordered_same {loop : Loop} {life : Life} {interrupted : Bool} (h : Ordered a)
    (hdue : a.loop.due = loop.due) (hread : a.loop.read = loop.read)
    (hmanage : a.loop.inManage = loop.inManage) :
    Ordered { a with loop, life, interrupted } :=
  ⟨fun time => hdue ▸ h.order time, h.early, hdue ▸ hread ▸ h.due, hmanage ▸ h.locked⟩

theorem ordered_manage (h : Ordered a) (hl : a.loop = .managing) (now : Nat) :
    Ordered ({ a with
      lock := .managing
      tasks := a.tasks.after now
      loop := .pushing now (a.tasks.upTo now) {} } : Agenda n) := by
  refine ⟨fun time => ?_, h.early, fun x hx => Multimap.le_of_mem_upTo hx, by simp [Loop.inManage]⟩
  have horder := h.order time
  rw [hl, ← Multimap.upTo_append_after (m := a.tasks) (k := now), valuesAt_append] at horder
  simpa [Agenda.given, Loop.due] using horder

theorem ordered_push {read time : Nat} {t : Task} {due : List (Nat × Task)}
    {recurred : Multimap Nat Task} (h : Ordered a)
    (hl : a.loop = .pushing read ((time, t) :: due) recurred) :
    Ordered ({ a with
      loop := .notifying read t due recurred
      handed := a.handed ++ [⟨read, time, t⟩] } : Agenda n) := by
  have hdue := h.due
  have hlocked := h.locked
  rw [hl] at hdue hlocked
  refine ⟨fun time' => ?_, fun g hg => ?_, fun x hx => hdue x (List.mem_cons_of_mem _ hx), hlocked⟩
  · have horder := h.order time'
    rw [hl] at horder
    rw [horder]
    simp [Agenda.given, Loop.due, valuesAt_cons]
  · rcases List.mem_append.mp hg with hg | hg
    · exact h.early g hg
    · rw [List.mem_singleton] at hg
      exact hg ▸ hdue (time, t) (List.mem_cons_self ..)

theorem ordered_finish {read : Nat} {recurred : Multimap Nat Task} (h : Ordered a)
    (hl : a.loop = .pushing read [] recurred) :
    Ordered ({ a with
      lock := .free
      tasks := a.tasks.emplaceAll recurred.entries
      added := a.added ++ recurred.entries
      loop := .checking } : Agenda n) := by
  refine ⟨fun time => ?_, h.early, nofun, by simp [Loop.inManage]⟩
  have horder := h.order time
  rw [hl] at horder
  rw [valuesAt_append, horder, Multimap.valuesAt_emplaceAll]
  simp [Agenda.given, Loop.due]

theorem ordered_loop (h : Ordered a) (hb : a.loopStep now = some b) : Ordered b := by
  cases looped hb with
  | manage hl hfree => exact ordered_manage h hl now
  | push hl => exact ordered_push h hl
  | finish hl => exact ordered_finish h hl
  | check hl hlife | quit hl hlife | find hl hfree | wake hl hwake | notify hl =>
    exact ordered_same h (by rw [hl]; rfl) (by rw [hl]; rfl) (by rw [hl]; rfl)

theorem ordered_step (h : Ordered a) (hb : a.step m = some b) : Ordered b := by
  cases m with
  | add time t thread =>
    simp only [Agenda.step, Option.ite_none_right_eq_some, Option.some.injEq] at hb
    obtain ⟨hfree, rfl⟩ := hb
    have hout : a.loop.inManage = false := by
      rw [Bool.eq_false_iff, ne_eq, h.locked, hfree]
      nofun
    have hdue : a.loop.due = [] := by cases hl : a.loop <;> simp_all [Loop.inManage, Loop.due]
    refine ⟨fun time' => ?_, h.early, h.due, by simp [hout]⟩
    have horder := h.order time'
    rw [hdue] at horder
    rw [valuesAt_append, horder, Multimap.valuesAt_emplace, hdue, valuesAt_cons]
    simp [Agenda.given]
  | interrupt =>
    simp only [Agenda.step] at hb
    cases hlock : a.lock with
    | adding thread =>
      simp only [hlock, Option.some.injEq] at hb
      subst hb
      refine ⟨h.order, h.early, h.due, ?_⟩
      rw [h.locked, hlock]
      simp
    | free | managing => simp [hlock] at hb
  | loop now => exact ordered_loop h hb
  | close =>
    simp only [Agenda.step, Option.ite_none_right_eq_some, Option.some.injEq] at hb
    exact hb.2 ▸ ordered_same h rfl rfl rfl
  | leave =>
    simp only [Agenda.step, Option.ite_none_right_eq_some, Option.some.injEq] at hb
    exact hb.2 ▸ ordered_same h rfl rfl rfl

/-! ## The loop does not oversleep -/

/-- No task comes before the deadline; without a deadline there is no task. -/
def Agenda.Covered (a : Agenda n) (deadline : Option Nat) : Prop :=
  ∀ x ∈ a.tasks.entries, ∃ time, deadline = some time ∧ time ≤ x.1

/-- A loop that sleeps past a task is about to be interrupted, and so is one that sleeps, or is
about to, when the destructor is past its own interrupt. -/
structure Awaited (a : Agenda n) : Prop where
  slept : ∀ deadline, a.loop = .sleeping deadline →
    a.interrupted ∨ (∃ thread, a.lock = .adding thread) ∨ a.Covered deadline
  left : a.life = .interrupted → a.loop = .finding ∨ (∃ deadline, a.loop = .sleeping deadline) →
    a.interrupted
  quit : a.loop = .returned → a.life ≠ .alive

theorem awaited_start : Awaited ({} : Agenda n) := ⟨nofun, nofun, nofun⟩

theorem covered_first (a : Agenda n) : a.Covered a.tasks.first? := by
  intro x hx
  cases hfirst : a.tasks.first? with
  | none =>
    rw [Multimap.first?_eq_none.mp hfirst] at hx
    cases hx
  | some time => exact ⟨time, rfl, Multimap.first?_le hfirst hx⟩

theorem awaited_awake (hfind : a.loop ≠ .finding) (hsleep : ∀ deadline, a.loop ≠ .sleeping deadline)
    (hquit : a.loop = .returned → a.life ≠ .alive) : Awaited a := by
  refine ⟨fun deadline h => absurd h (hsleep deadline), fun _ h => ?_, hquit⟩
  rcases h with h | ⟨deadline, h⟩
  · exact absurd h hfind
  · exact absurd h (hsleep deadline)

theorem awaited_loop (h : Awaited a) (hb : a.loopStep now = some b) : Awaited b := by
  cases looped hb with
  | check hl hlife =>
    refine ⟨nofun, fun hleft => ?_, nofun⟩
    rw [hlife] at hleft
    cases hleft
  | quit hl hlife => exact awaited_awake nofun nofun fun _ => hlife
  | find hl hfree =>
    refine ⟨fun deadline hd => .inr (.inr ?_), fun hleft _ => h.left hleft (.inl hl), nofun⟩
    cases hd
    exact covered_first a
  | wake hl hwake | manage hl hfree | push hl | finish hl | notify hl =>
    exact awaited_awake nofun nofun nofun

theorem awaited_step (h : Awaited a) (hb : a.step m = some b) : Awaited b := by
  cases m with
  | add time t thread =>
    simp only [Agenda.step, Option.ite_none_right_eq_some, Option.some.injEq] at hb
    obtain ⟨-, rfl⟩ := hb
    exact ⟨fun _ _ => .inr (.inl ⟨thread, rfl⟩), h.left, h.quit⟩
  | interrupt =>
    simp only [Agenda.step] at hb
    cases hlock : a.lock with
    | adding thread =>
      simp only [hlock, Option.some.injEq] at hb
      subst hb
      exact ⟨fun _ _ => .inl rfl, fun _ _ => rfl, h.quit⟩
    | free | managing => simp [hlock] at hb
  | loop now => exact awaited_loop h hb
  | close =>
    simp only [Agenda.step, Option.ite_none_right_eq_some, Option.some.injEq] at hb
    obtain ⟨-, rfl⟩ := hb
    exact ⟨h.slept, nofun, fun _ => nofun⟩
  | leave =>
    simp only [Agenda.step, Option.ite_none_right_eq_some, Option.some.injEq] at hb
    obtain ⟨-, rfl⟩ := hb
    exact ⟨fun _ _ => .inl rfl, fun _ _ => rfl, fun _ => nofun⟩

end Owls.Bosma
