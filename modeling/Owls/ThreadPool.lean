import Owls.Base.Machine
import Mathlib.Algebra.BigOperators.Group.Finset.Piecewise
import Mathlib.Algebra.Order.BigOperators.Group.Finset
import Mathlib.Data.Fintype.BigOperators
import Mathlib.Tactic.Common

/-!
# The thread pool of the scheduler

`thread_pool` with its queue and its condition variable. The queue has a mutex of its own: a
`push` puts its job into the queue before it takes the mutex of the condition variable and
notifies, and a thread looks into the queue while it holds that mutex.
-/

open Machine

namespace Owls.ThreadPool

variable {J : Type*} {n : Nat}

/-- How far a thread is in the function of `set_thread`. -/
inductive Worker (J : Type*) where
  /-- At the `pop` of the inner loop. -/
  | popping
  | running (j : J)
  /-- In a `push` of its own job, which has not notified yet. -/
  | pushing (j : J)
  /-- Before the predicate of `cv.wait`. -/
  | testing
  /-- In the predicate, with the mutex: `pop` found nothing, and `isDone` is not read yet. -/
  | tested
  | waiting
  | ended
deriving DecidableEq

structure Pool (J : Type*) (n : Nat) where
  workers : Fin n → Worker J := fun _ => .popping
  queue : List J := []
  isDone : Bool := false
  /-- The pushes of other threads that have not notified yet. -/
  entering : Nat := 0
  /-- `stop` has notified all. -/
  told : Bool := false
  /-- All jobs that came into the queue, in this order. -/
  pushed : List J := []
  /-- All jobs that a thread took out of it, in this order. -/
  started : List J := []

inductive Event (J : Type*) (n : Nat) where
  /-- `q.push`, by a thread of the pool or by another one. -/
  | push (caller : Option (Fin n)) (j : J)
  /-- `notify_one` of such a push, and the thread that it wakes. -/
  | notify (caller woken : Option (Fin n))
  | spurious (i : Fin n)
  /-- The next step of a thread. -/
  | work (i : Fin n)
  /-- `stop(true)` sets `isDone`. -/
  | done
  | notifyAll

def Worker.isTested : Worker J → Bool
  | .tested => true
  | .popping | .running _ | .pushing _ | .testing | .waiting | .ended => false

def Worker.isWaiting : Worker J → Bool
  | .waiting => true
  | .popping | .running _ | .pushing _ | .testing | .tested | .ended => false

/-- What `notify_all` does to a thread. -/
def Worker.woken : Worker J → Worker J
  | .waiting => .testing
  | .popping => .popping
  | .running j => .running j
  | .pushing j => .pushing j
  | .testing => .testing
  | .tested => .tested
  | .ended => .ended

/-- Nobody holds the mutex of the condition variable. -/
def Pool.free (p : Pool J n) : Bool := decide (∀ i, (p.workers i).isTested = false)

def Pool.put (p : Pool J n) (i : Fin n) (w : Worker J) : Pool J n :=
  { p with workers := Function.update p.workers i w }

def Pool.enqueue (p : Pool J n) (j : J) : Pool J n :=
  { p with queue := p.queue ++ [j], pushed := p.pushed ++ [j] }

/-- `pop`, and where it leaves the thread if there is nothing in the queue. -/
def Pool.pop (p : Pool J n) (i : Fin n) (w : Worker J) : Pool J n :=
  match p.queue with
  | [] => p.put i w
  | j :: queue => { p with queue, started := p.started ++ [j] }.put i (.running j)

def Pool.work (p : Pool J n) (i : Fin n) : Option (Pool J n) :=
  match p.workers i with
  | .popping => some (p.pop i .testing)
  | .running _ => some (p.put i .popping)
  | .testing => if p.free then some (p.pop i .tested) else none
  | .tested => some (p.put i (if p.isDone then .ended else .waiting))
  | .pushing _ | .waiting | .ended => none

/-- `notify_one` wakes a thread that waits, if there is one. -/
def Pool.wake (p : Pool J n) : Option (Fin n) → Option (Pool J n)
  | some i => if (p.workers i).isWaiting then some (p.put i .testing) else none
  | none => if ∀ i, (p.workers i).isWaiting = false then some p else none

/-- Nobody but the threads themselves uses the pool once it is destroyed. -/
def step (p : Pool J n) : Event J n → Option (Pool J n)
  | .push none j =>
    if p.isDone then none else some { p.enqueue j with entering := p.entering + 1 }
  | .push (some i) j =>
    match p.workers i with
    | .running k => some ((p.enqueue j).put i (.pushing k))
    | .popping | .pushing _ | .testing | .tested | .waiting | .ended => none
  | .notify none woken =>
    if 0 < p.entering ∧ p.free then { p with entering := p.entering - 1 }.wake woken else none
  | .notify (some i) woken =>
    match p.workers i with
    | .pushing k => if p.free then (p.put i (.running k)).wake woken else none
    | .popping | .running _ | .testing | .tested | .waiting | .ended => none
  | .spurious i => if (p.workers i).isWaiting then some (p.put i .testing) else none
  | .work i => p.work i
  | .done => if p.isDone ∨ 0 < p.entering then none else some { p with isDone := true }
  | .notifyAll =>
    if p.isDone ∧ p.told = false ∧ p.free then
      some { p with workers := fun i => (p.workers i).woken, told := true }
    else none

variable {p q : Pool J n} {i k : Fin n} {w : Worker J} {j : J} {e : Event J n}

/-! ## One step -/

def Worker.isAwake : Worker J → Bool
  | .popping | .running _ | .pushing _ | .testing => true
  | .tested | .waiting | .ended => false

def Worker.isPushing : Worker J → Bool
  | .pushing _ => true
  | .popping | .running _ | .testing | .tested | .waiting | .ended => false

/-- A thread that is about to look into the queue. -/
def Worker.isSeeking : Worker J → Bool
  | .popping | .testing => true
  | .running _ | .pushing _ | .tested | .waiting | .ended => false

@[simp] theorem put_queue : (p.put i w).queue = p.queue := rfl
@[simp] theorem put_isDone : (p.put i w).isDone = p.isDone := rfl
@[simp] theorem put_entering : (p.put i w).entering = p.entering := rfl
@[simp] theorem put_told : (p.put i w).told = p.told := rfl
@[simp] theorem put_started : (p.put i w).started = p.started := rfl
@[simp] theorem put_same : (p.put i w).workers i = w := Function.update_self ..

theorem put_other (h : k ≠ i) : (p.put i w).workers k = p.workers k := Function.update_of_ne h ..

theorem put_sum (g : Worker J → Nat) :
    (∑ k, g ((p.put i w).workers k)) + g (p.workers i) = (∑ k, g (p.workers k)) + g w := by
  have hrest : ∀ k ∈ Finset.univ.erase i, g ((p.put i w).workers k) = g (p.workers k) :=
    fun k hk => by rw [put_other (Finset.ne_of_mem_erase hk)]
  rw [← Finset.add_sum_erase _ _ (Finset.mem_univ i),
    ← Finset.add_sum_erase _ (fun k => g (p.workers k)) (Finset.mem_univ i),
    Finset.sum_congr rfl hrest, put_same]
  omega

/-- How many threads are as `P` says. -/
def Pool.count (p : Pool J n) (P : Worker J → Bool) : Nat := ∑ i, (P (p.workers i)).toNat

theorem put_count (P : Worker J → Bool) {v : Worker J} (hw : p.workers i = v) :
    (p.put i w).count P + (P v).toNat = p.count P + (P w).toNat :=
  hw ▸ put_sum fun w => (P w).toNat

theorem one_le_count {P : Worker J → Bool} (hi : P (p.workers i)) : 1 ≤ p.count P := by
  have hle : (P (p.workers i)).toNat ≤ p.count P :=
    Finset.single_le_sum (f := fun k => (P (p.workers k)).toNat) (fun _ _ => Nat.zero_le _)
      (Finset.mem_univ i)
  rwa [hi] at hle

theorem eq_of_count {P : Worker J → Bool} (hone : p.count P ≤ 1) (hi : P (p.workers i))
    (hk : P (p.workers k)) : i = k := by
  by_contra hne
  have hsub : ∑ l ∈ {i, k}, (P (p.workers l)).toNat ≤ p.count P :=
    Finset.sum_le_sum_of_subset (Finset.subset_univ _)
  rw [Finset.sum_pair hne, hi, hk] at hsub
  exact absurd (hsub.trans hone) (by decide)

theorem free_iff : p.free = true ↔ ∀ i, (p.workers i).isTested = false := decide_eq_true_iff

theorem not_free_iff : p.free = false ↔ ∃ i, (p.workers i).isTested = true := by
  simp [Pool.free]

theorem free_put (h : w.isTested = false) (hfree : (p.put i w).free = false) : p.free = false := by
  obtain ⟨k, hk⟩ := not_free_iff.mp hfree
  by_cases hki : k = i
  · subst hki
    rw [put_same, h] at hk
    cases hk
  · rw [put_other hki] at hk
    exact not_free_iff.mpr ⟨k, hk⟩

theorem free_move (h : w.isTested = false) (hfree : p.free) : (p.put i w).free := by
  rw [← Bool.not_eq_false]
  intro hf
  rw [free_put h hf] at hfree
  cases hfree

theorem not_pushing (h : w.isSeeking) : w.isPushing = false := by
  cases w <;> first | rfl | cases h

theorem wake_some (h : p.wake (some i) = some q) :
    (p.workers i).isWaiting = true ∧ q = p.put i .testing := by
  simp only [Pool.wake, Option.ite_none_right_eq_some, Option.some.injEq] at h
  exact ⟨h.1, h.2.symm⟩

theorem wake_none (h : p.wake none = some q) :
    (∀ i, (p.workers i).isWaiting = false) ∧ q = p := by
  simp only [Pool.wake, Option.ite_none_right_eq_some, Option.some.injEq] at h
  exact ⟨h.1, h.2.symm⟩

theorem exists_wake (p : Pool J n) : ∃ woken q, p.wake woken = some q := by
  by_cases h : ∀ i, (p.workers i).isWaiting = false
  · exact ⟨none, p, if_pos h⟩
  · obtain ⟨i, hi⟩ := not_forall.mp h
    exact ⟨some i, p.put i .testing, if_pos (by simpa using hi)⟩

@[simp] theorem woken_isTested : w.woken.isTested = w.isTested := by cases w <;> rfl
@[simp] theorem woken_isWaiting : w.woken.isWaiting = false := by cases w <;> rfl

theorem woken_isAwake (h : w.isAwake) : w.woken.isAwake := by
  cases w <;> first | exact h | rfl

theorem woken_ended (h : w.woken = .ended) : w = .ended := by
  cases w <;> first | exact h | cases h

theorem free_woken (hfree : p.free) :
    ({ p with workers := fun i => (p.workers i).woken, told := true } : Pool J n).free := by
  simpa only [free_iff, woken_isTested] using hfree

/-- What a step can do. -/
inductive Stepped (p : Pool J n) : Event J n → Pool J n → Prop where
  | push {j : J} (hopen : p.isDone = false) :
    Stepped p (.push none j) { p.enqueue j with entering := p.entering + 1 }
  | pushOwn {i : Fin n} {j l : J} (hw : p.workers i = .running l) :
    Stepped p (.push (some i) j) ((p.enqueue j).put i (.pushing l))
  | notify {woken : Option (Fin n)} {q : Pool J n} (hentering : 0 < p.entering) (hfree : p.free)
    (hwake : { p with entering := p.entering - 1 }.wake woken = some q) :
    Stepped p (.notify none woken) q
  | notifyOwn {i : Fin n} {l : J} {woken : Option (Fin n)} {q : Pool J n}
    (hw : p.workers i = .pushing l) (hfree : p.free)
    (hwake : (p.put i (.running l)).wake woken = some q) : Stepped p (.notify (some i) woken) q
  | spurious {i : Fin n} (hw : p.workers i = .waiting) : Stepped p (.spurious i) (p.put i .testing)
  | take {i : Fin n} {j : J} {queue : List J} (hi : (p.workers i).isSeeking)
    (hq : p.queue = j :: queue) :
    Stepped p (.work i) ({ p with queue, started := p.started ++ [j] }.put i (.running j))
  | look {i : Fin n} (hw : p.workers i = .popping) (hq : p.queue = []) :
    Stepped p (.work i) (p.put i .testing)
  | hold {i : Fin n} (hw : p.workers i = .testing) (hq : p.queue = []) :
    Stepped p (.work i) (p.put i .tested)
  | finish {i : Fin n} {j : J} (hw : p.workers i = .running j) :
    Stepped p (.work i) (p.put i .popping)
  | rest {i : Fin n} (hw : p.workers i = .tested) :
    Stepped p (.work i) (p.put i (if p.isDone then .ended else .waiting))
  | done (hopen : p.isDone = false) (hentering : p.entering = 0) :
    Stepped p .done { p with isDone := true }
  | notifyAll (hdone : p.isDone) (htold : p.told = false) (hfree : p.free) :
    Stepped p .notifyAll { p with workers := fun i => (p.workers i).woken, told := true }

theorem waiting_of {w : Worker J} (h : w.isWaiting) : w = .waiting := by
  cases w <;> first | rfl | cases h

theorem stepped_work (hp : p.work i = some q) : Stepped p (.work i) q := by
  unfold Pool.work Pool.pop at hp
  cases hw : p.workers i with
  | popping =>
    simp only [hw, Option.some.injEq] at hp
    subst hp
    split
    · exact .look hw ‹_›
    · exact .take (by rw [hw]; rfl) ‹_›
  | running j =>
    simp only [hw, Option.some.injEq] at hp
    exact hp ▸ .finish hw
  | testing =>
    simp only [hw, Option.ite_none_right_eq_some, Option.some.injEq] at hp
    obtain ⟨-, rfl⟩ := hp
    split
    · exact .hold hw ‹_›
    · exact .take (by rw [hw]; rfl) ‹_›
  | tested =>
    simp only [hw, Option.some.injEq] at hp
    exact hp ▸ .rest hw
  | pushing j | waiting | ended => simp [hw] at hp

theorem stepped (hp : step p e = some q) : Stepped p e q := by
  cases e with
  | push caller j =>
    cases caller with
    | none =>
      simp only [step, Option.ite_none_left_eq_some, Option.some.injEq, Bool.not_eq_true] at hp
      exact hp.2 ▸ .push hp.1
    | some i =>
      unfold step at hp
      cases hw : p.workers i <;> simp only [hw, Option.some.injEq, reduceCtorEq] at hp
      exact hp ▸ .pushOwn hw
  | notify caller woken =>
    cases caller with
    | none =>
      simp only [step, Option.ite_none_right_eq_some] at hp
      exact .notify hp.1.1 hp.1.2 hp.2
    | some i =>
      unfold step at hp
      cases hw : p.workers i <;>
        simp only [hw, Option.ite_none_right_eq_some, reduceCtorEq] at hp
      exact .notifyOwn hw hp.1 hp.2
  | spurious i =>
    simp only [step, Option.ite_none_right_eq_some, Option.some.injEq] at hp
    exact hp.2 ▸ .spurious (waiting_of hp.1)
  | work i => exact stepped_work hp
  | done =>
    simp only [step, Option.ite_none_left_eq_some, Option.some.injEq, not_or, not_lt,
      Bool.not_eq_true] at hp
    exact hp.2 ▸ .done hp.1.1 (Nat.le_zero.mp hp.1.2)
  | notifyAll =>
    simp only [step, Option.ite_none_right_eq_some, Option.some.injEq] at hp
    obtain ⟨⟨hdone, htold, hfree⟩, rfl⟩ := hp
    exact .notifyAll hdone htold hfree

/-! ## No wake-up is lost -/

/-- Somebody will see to the queue: a push that has not notified, or a thread that is awake. As
long as a thread holds the mutex in its predicate, it is one that is in a push. -/
def Pool.Kept (p : Pool J n) : Prop :=
  0 < p.entering ∨
    ∃ i, (p.workers i).isAwake ∧ (p.free = false → (p.workers i).isPushing)

structure Live (p : Pool J n) : Prop where
  order : p.pushed = p.started ++ p.queue
  kept : p.queue ≠ [] → p.Kept
  ended : ∀ i, p.workers i = .ended → p.isDone
  closed : p.isDone → p.entering = 0
  told : p.told → p.isDone ∧ ∀ i, (p.workers i).isWaiting = false

theorem kept_put (h : p.Kept) (hw : w.isTested = false)
    (hpush : (p.workers i).isPushing = false)
    (hawake : (p.workers i).isAwake → w.isAwake) : (p.put i w).Kept := by
  rcases h with h | ⟨k, hk, hheld⟩
  · exact .inl h
  · right
    by_cases hki : k = i
    · subst hki
      refine ⟨k, by simpa using hawake hk, fun hfree => ?_⟩
      rw [hheld (free_put hw hfree)] at hpush
      cases hpush
    · refine ⟨k, by rwa [put_other hki], fun hfree => ?_⟩
      rw [put_other hki]
      exact hheld (free_put hw hfree)

theorem kept_awake (hw : w.isAwake) (hfree : p.free) : (p.put i w).Kept := by
  refine .inr ⟨i, by simpa using hw, fun h => ?_⟩
  have htested : w.isTested = false := by cases w <;> first | rfl | cases hw
  rw [free_put htested h] at hfree
  cases hfree

theorem live_put (h : Live p) (hkept : p.queue ≠ [] → (p.put i w).Kept)
    (hended : w = .ended → p.isDone) (hwaiting : w.isWaiting → p.told = false) :
    Live (p.put i w) := by
  refine ⟨h.order, hkept, fun k hk => ?_, h.closed, fun ht => ⟨(h.told ht).1, fun k => ?_⟩⟩
  · by_cases hki : k = i
    · subst hki
      exact hended (by simpa using hk)
    · exact h.ended k (by rwa [put_other hki] at hk)
  · by_cases hki : k = i
    · subst hki
      rw [put_same, Bool.eq_false_iff]
      intro hw
      have htold : p.told = false := hwaiting hw
      rw [put_told, htold] at ht
      cases ht
    · rw [put_other hki]
      exact (h.told ht).2 k

theorem live_move (h : Live p) (hw : w.isTested = false) (hpush : (p.workers i).isPushing = false)
    (hawake : (p.workers i).isAwake → w.isAwake) (hended : w = .ended → p.isDone)
    (hwaiting : w.isWaiting → p.told = false) : Live (p.put i w) :=
  live_put h (fun hq => kept_put (h.kept hq) hw hpush hawake) hended hwaiting

theorem live_take {queue : List J} (h : Live p) (hq : p.queue = j :: queue) :
    Live { p with queue, started := p.started ++ [j] } := by
  refine ⟨?_, fun _ => h.kept (by simp [hq]), h.ended, h.closed, h.told⟩
  have horder := h.order
  rw [hq] at horder
  simpa using horder

theorem live_wake {woken : Option (Fin n)} (h : Live p) (hfree : p.free)
    (hp : p.wake woken = some q) : Live q := by
  cases woken with
  | none => exact (wake_none hp).2 ▸ h
  | some i => exact (wake_some hp).2 ▸ live_put h (fun _ => kept_awake rfl hfree) nofun nofun

theorem live_notify {woken : Option (Fin n)} (hn : 0 < n) (h : Live p) (hentering : 0 < p.entering)
    (hfree : p.free) (hp : { p with entering := p.entering - 1 }.wake woken = some q) : Live q := by
  have hdone : p.isDone = false := by
    rw [Bool.eq_false_iff]
    intro hdone
    exact absurd (h.closed hdone) (Nat.ne_of_gt hentering)
  have hclosed (hd : p.isDone) : p.entering - 1 = 0 := by rw [h.closed hd]
  cases woken with
  | some i =>
    obtain ⟨hi, rfl⟩ := wake_some hp
    have hlive : Live (p.put i .testing) := live_put h (fun _ => kept_awake rfl hfree) nofun nofun
    exact ⟨hlive.order, fun _ => kept_awake (p := { p with entering := p.entering - 1 }) rfl hfree,
      hlive.ended, hclosed, hlive.told⟩
  | none =>
    obtain ⟨hall, rfl⟩ := wake_none hp
    refine ⟨h.order, fun _ => .inr ⟨⟨0, hn⟩, ?_, fun hf => ?_⟩, h.ended, hclosed, h.told⟩
    · have hwait := hall ⟨0, hn⟩
      have htested := free_iff.mp hfree ⟨0, hn⟩
      have hover := h.ended ⟨0, hn⟩
      cases hw : p.workers ⟨0, hn⟩ <;>
        simp_all [Worker.isAwake, Worker.isWaiting, Worker.isTested]
    · have hheld : p.free = false := hf
      rw [hheld] at hfree
      cases hfree

theorem live_enqueue (h : Live p) (hkept : (p.enqueue j).Kept) : Live (p.enqueue j) :=
  ⟨by simp [Pool.enqueue, h.order], fun _ => hkept, h.ended, h.closed, h.told⟩

theorem kept_pushing : (p.put i (.pushing j)).Kept :=
  .inr ⟨i, by rw [put_same]; rfl, fun _ => by rw [put_same]; rfl⟩

theorem live_rest (h : Live p) (hw : p.workers i = .tested) :
    Live (p.put i (if p.isDone then .ended else .waiting)) := by
  cases hdone : p.isDone with
  | true =>
    exact live_move h rfl (by rw [hw]; rfl) (by simp [hw, Worker.isAwake]) (fun _ => hdone) nofun
  | false =>
    refine live_move h rfl (by rw [hw]; rfl) (by simp [hw, Worker.isAwake]) nofun fun _ => ?_
    rw [Bool.eq_false_iff]
    intro htold
    rw [(h.told htold).1] at hdone
    cases hdone

theorem live_notifyAll (h : Live p) (hdone : p.isDone) (hfree : p.free) :
    Live { p with workers := fun i => (p.workers i).woken, told := true } := by
  refine ⟨h.order, fun hq => ?_, fun k hk => h.ended k (woken_ended hk), h.closed,
    fun _ => ⟨hdone, fun k => woken_isWaiting⟩⟩
  rcases h.kept hq with hentering | ⟨k, hk, hheld⟩
  · exact .inl hentering
  · refine .inr ⟨k, woken_isAwake hk, fun hf => ?_⟩
    rw [free_woken hfree] at hf
    cases hf

theorem live_step (hn : 0 < n) (h : Live p) (hp : step p e = some q) : Live q := by
  cases stepped hp with
  | push hopen =>
    refine ⟨by simp [Pool.enqueue, h.order], fun _ => .inl (Nat.succ_pos _), h.ended, fun hd => ?_,
      h.told⟩
    have hdone : p.isDone = true := hd
    rw [hopen] at hdone
    cases hdone
  | @pushOwn i j l hw =>
    have hlive : Live (p.put i (.pushing l)) := live_put h (fun _ => kept_pushing) nofun nofun
    exact live_enqueue hlive (kept_pushing (p := p.enqueue j))
  | notify hentering hfree hwake => exact live_notify hn h hentering hfree hwake
  | @notifyOwn i l woken q hw hfree hwake =>
    have hlive : Live (p.put i (.running l)) :=
      live_put h (fun _ => kept_awake rfl hfree) nofun nofun
    exact live_wake hlive (free_move rfl hfree) hwake
  | take hi hq => exact live_move (live_take h hq) rfl (not_pushing hi) (fun _ => rfl) nofun nofun
  | hold hw hq => exact live_put h (fun hne => absurd hq hne) nofun nofun
  | rest hw => exact live_rest h hw
  | spurious hw | look hw | finish hw =>
    exact live_move h rfl (by rw [hw]; rfl) (fun _ => rfl) nofun nofun
  | done hopen hentering =>
    exact ⟨h.order, h.kept, fun _ _ => rfl, fun _ => hentering, fun ht => ⟨rfl, (h.told ht).2⟩⟩
  | notifyAll hdone htold hfree => exact live_notifyAll h hdone hfree

theorem live_start : Live ({} : Pool J n) :=
  ⟨rfl, fun h => absurd rfl h, nofun, nofun, nofun⟩

theorem live_run {es : List (Event J n)} (hn : 0 < n) (h : run step {} es = some p) : Live p := by
  have hall : Always step Live {} es :=
    always_of_step live_start (fun _ _ _ hI he => live_step hn hI he) es
  exact hall.here h

/-! ## Every job in the queue has a thread on its way -/

/-- The pushes that have not notified yet. -/
def Pool.unnotified (p : Pool J n) : Nat := p.entering + p.count Worker.isPushing

/-- A thread waits only while each job in the queue has a push that has not notified or a thread
that is about to look. Behind a thread that holds the mutex, each has a push. -/
structure Met (p : Pool J n) : Prop where
  met : p.queue.length ≤ p.unnotified + p.count Worker.isSeeking ∨
    ∀ i, (p.workers i).isWaiting = false
  held : p.free = false → p.queue.length ≤ p.unnotified

theorem not_waiting_put (hw : w.isWaiting = false) (h : ∀ k, (p.workers k).isWaiting = false) :
    ∀ k, ((p.put i w).workers k).isWaiting = false := by
  intro k
  by_cases hki : k = i
  · subst hki
    rwa [put_same]
  · rw [put_other hki]
    exact h k

theorem met_move (h : Met p) (hw : w.isTested = false) (hwait : w.isWaiting = false)
    (hpush : (p.workers i).isPushing = false) (hpush' : w.isPushing = false)
    (hseek : (p.workers i).isSeeking → w.isSeeking) : Met (p.put i w) := by
  have hcount := put_count (p := p) (i := i) (w := w) Worker.isPushing rfl
  have hseeking := put_count (p := p) (i := i) (w := w) Worker.isSeeking rfl
  have hle : (p.workers i).isSeeking.toNat ≤ w.isSeeking.toNat := by
    cases hs : (p.workers i).isSeeking with
    | false => exact Nat.zero_le _
    | true => rw [hseek hs]
  simp only [hpush, hpush', Bool.toNat_false] at hcount
  refine ⟨?_, fun hfree => ?_⟩
  · rcases h.met with hmet | hnone
    · left
      simp only [Pool.unnotified, put_queue, put_entering] at hmet ⊢
      omega
    · exact .inr (not_waiting_put hwait hnone)
  · have := h.held (free_put hw hfree)
    simp only [Pool.unnotified, put_queue, put_entering] at this ⊢
    omega

theorem met_take {queue : List J} (h : Met p) (hi : (p.workers i).isSeeking)
    (hq : p.queue = j :: queue) :
    Met ({ p with queue, started := p.started ++ [j] }.put i (.running j)) := by
  have hcount := put_count (p := p) (i := i) (w := .running j) Worker.isPushing rfl
  have hseeking := put_count (p := p) (i := i) (w := .running j) Worker.isSeeking rfl
  rw [not_pushing hi] at hcount
  rw [hi] at hseeking
  change _ + 0 = _ + 0 at hcount
  change _ + 1 = _ + 0 at hseeking
  refine ⟨?_, fun hfree => ?_⟩
  · rcases h.met with hmet | hnone
    · left
      simp only [Pool.unnotified, hq, List.length_cons] at hmet
      change queue.length ≤ p.entering + (p.put i (.running j)).count _ +
        (p.put i (.running j)).count _
      omega
    · exact .inr (not_waiting_put (p := p) rfl hnone)
  · have := h.held (free_put (p := p) rfl hfree)
    simp only [Pool.unnotified, hq, List.length_cons] at this
    change queue.length ≤ p.entering + (p.put i (.running j)).count _
    omega

theorem met_pushed (h : Met p) (hqueue : q.queue.length = p.queue.length + 1)
    (hunnotified : q.unnotified = p.unnotified + 1)
    (hseeking : q.count Worker.isSeeking = p.count Worker.isSeeking)
    (hwaiting : (∀ k, (p.workers k).isWaiting = false) → ∀ k, (q.workers k).isWaiting = false)
    (hfree : q.free = false → p.free = false) : Met q := by
  refine ⟨h.met.imp (fun hmet => by omega) hwaiting, fun hf => ?_⟩
  have := h.held (hfree hf)
  omega

theorem met_pushOwn {l : J} (h : Met p) (hw : p.workers i = .running l) :
    Met ((p.enqueue j).put i (.pushing l)) := by
  have hcount : ((p.enqueue j).put i (.pushing l)).count Worker.isPushing + 0 =
    p.count Worker.isPushing + 1 := put_count (p := p.enqueue j) _ hw
  have hseeking : ((p.enqueue j).put i (.pushing l)).count Worker.isSeeking + 0 =
    p.count Worker.isSeeking + 0 := put_count (p := p.enqueue j) _ hw
  refine met_pushed h (by simp [Pool.enqueue]) ?_ (by omega)
    (not_waiting_put (p := p.enqueue j) rfl) (free_put (p := p.enqueue j) rfl)
  change p.entering + _ = p.entering + _ + 1
  omega

theorem met_rest (h : Met p) (hw : p.workers i = .tested) :
    Met (p.put i (if p.isDone then .ended else .waiting)) := by
  have hheld := h.held (not_free_iff.mpr ⟨i, by rw [hw]; rfl⟩)
  have hcount : (p.put i (if p.isDone then .ended else .waiting)).count Worker.isPushing =
      p.count Worker.isPushing := by
    split
    · exact put_count (w := .ended) Worker.isPushing hw
    · exact put_count (w := .waiting) Worker.isPushing hw
  have hunnotified : (p.put i (if p.isDone then .ended else .waiting)).unnotified =
      p.unnotified := by rw [Pool.unnotified, hcount]; rfl
  refine ⟨.inl ?_, fun _ => ?_⟩
  · rw [hunnotified, put_queue]
    omega
  · rw [hunnotified, put_queue]
    exact hheld

theorem met_wake {woken : Option (Fin n)} (hfree : p.free)
    (hmet : p.queue.length ≤ p.unnotified + 1 + p.count Worker.isSeeking ∨
      ∀ i, (p.workers i).isWaiting = false) (hp : p.wake woken = some q) : Met q := by
  have hnot (hf : p.free = false) : False := by
    rw [hfree] at hf
    cases hf
  cases woken with
  | none =>
    obtain ⟨hnone, rfl⟩ := wake_none hp
    exact ⟨.inr hnone, fun hf => (hnot hf).elim⟩
  | some i =>
    obtain ⟨hi, rfl⟩ := wake_some hp
    refine ⟨.inl ?_, fun hf => (hnot (free_put rfl hf)).elim⟩
    have hw : p.workers i = .waiting := by
      cases hw : p.workers i <;> simp_all [Worker.isWaiting]
    have hcount : (p.put i .testing).count Worker.isPushing + 0 =
      p.count Worker.isPushing + 0 := put_count _ hw
    have hseeking : (p.put i .testing).count Worker.isSeeking + 0 =
      p.count Worker.isSeeking + 1 := put_count _ hw
    rcases hmet with hmet | hnone
    · simp only [Pool.unnotified, put_queue, put_entering] at hmet ⊢
      omega
    · rw [hnone i] at hi
      cases hi

theorem met_notify {woken : Option (Fin n)} (h : Met p) (hentering : 0 < p.entering)
    (hfree : p.free) (hp : { p with entering := p.entering - 1 }.wake woken = some q) : Met q := by
  refine met_wake (p := { p with entering := p.entering - 1 }) hfree
    (h.met.imp_left fun hmet => ?_) hp
  simp only [Pool.unnotified] at hmet
  change p.queue.length ≤ p.entering - 1 + p.count _ + 1 + p.count _
  omega

theorem met_notifyOwn {l : J} {woken : Option (Fin n)} (h : Met p) (hw : p.workers i = .pushing l)
    (hfree : p.free) (hp : (p.put i (.running l)).wake woken = some q) : Met q := by
  have hcount : (p.put i (.running l)).count Worker.isPushing + 1 =
    p.count Worker.isPushing + 0 := put_count _ hw
  have hseeking : (p.put i (.running l)).count Worker.isSeeking + 0 =
    p.count Worker.isSeeking + 0 := put_count _ hw
  refine met_wake (free_move rfl hfree) (h.met.imp (fun hmet => ?_) (not_waiting_put rfl)) hp
  simp only [Pool.unnotified, put_queue, put_entering] at hmet ⊢
  omega

theorem met_step (h : Met p) (hp : step p e = some q) : Met q := by
  cases stepped hp with
  | push hopen =>
    refine met_pushed h (by simp [Pool.enqueue]) ?_ rfl id id
    change p.entering + 1 + p.count _ = p.entering + p.count _ + 1
    omega
  | pushOwn hw => exact met_pushOwn h hw
  | notify hentering hfree hwake => exact met_notify h hentering hfree hwake
  | notifyOwn hw hfree hwake => exact met_notifyOwn h hw hfree hwake
  | take hi hq => exact met_take h hi hq
  | hold hw hq => exact ⟨.inl (by simp [hq]), fun _ => by simp [hq]⟩
  | rest hw => exact met_rest h hw
  | spurious hw | look hw | finish hw =>
    exact met_move h rfl rfl (by rw [hw]; rfl) rfl (by rw [hw]; simp [Worker.isSeeking])
  | done hopen hentering => exact ⟨h.met, h.held⟩
  | notifyAll hdone htold hfree =>
    refine ⟨.inr fun k => woken_isWaiting, fun hf => ?_⟩
    rw [free_woken hfree] at hf
    cases hf

theorem met_start : Met ({} : Pool J n) := ⟨.inr fun _ => rfl, fun _ => Nat.zero_le _⟩

theorem met_run {es : List (Event J n)} (h : run step {} es = some p) : Met p := by
  have hall : Always step Met ({} : Pool J n) es :=
    always_of_step met_start (fun _ _ _ hI he => met_step hI he) es
  exact hall.here h

end Owls.ThreadPool
