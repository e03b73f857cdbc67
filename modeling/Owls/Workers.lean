import Owls.ThreadPool

/-!
# The threads of the pool and their jobs

What becomes of the jobs that are posted: each is started once and in order, a thread keeps its job
until it returns, and the threads come to rest with nothing left in the queue.
-/

open Machine

namespace Owls.ThreadPool

variable {J : Type*} {n : Nat} {p q : Pool J n} {i k : Fin n} {w : Worker J} {j : J} {e : Event J n}

/-! ## The jobs in the hands of the threads -/

def Worker.holds (P : J → Bool) : Worker J → Bool
  | .running j | .pushing j => P j
  | .popping | .testing | .tested | .waiting | .ended => false

/-- A thread with a job. -/
def Worker.isBusy : Worker J → Bool := Worker.holds fun _ => true

variable {P : J → Bool}

theorem idle_of_seeking (h : w.isSeeking) : w.isBusy = false := by
  cases w <;> first | rfl | cases h

theorem holds_of_idle (h : w.isBusy = false) : w.holds P = false := by
  cases w <;> first | rfl | cases h

theorem pushing_of_idle (h : w.isBusy = false) : w.isPushing = false := by
  cases w <;> first | rfl | cases h

theorem put_holds {v : Worker J} (hw : p.workers i = v) (h : w.holds P = v.holds P) :
    (p.put i w).count (Worker.holds P) = p.count (Worker.holds P) := by
  have := put_count (w := w) (Worker.holds P) hw
  rw [h] at this
  omega

theorem wake_holds {woken : Option (Fin n)} (hp : p.wake woken = some q) :
    q.count (Worker.holds P) = p.count (Worker.holds P) := by
  cases woken with
  | none => rw [(wake_none hp).2]
  | some i =>
    obtain ⟨hi, rfl⟩ := wake_some hp
    exact put_holds (waiting_of hi) rfl

theorem wake_same {woken : Option (Fin n)} (hp : p.wake woken = some q) :
    q.started = p.started ∧ q.pushed = p.pushed ∧ q.queue = p.queue ∧ q.isDone = p.isDone := by
  cases woken with
  | none =>
    rw [(wake_none hp).2]
    exact ⟨rfl, rfl, rfl, rfl⟩
  | some i =>
    rw [(wake_some hp).2]
    exact ⟨rfl, rfl, rfl, rfl⟩

theorem take_holds {queue : List J} (hi : (p.workers i).isSeeking) :
    (({ p with queue, started := p.started ++ [j] } : Pool J n).put i (.running j)).count
        (Worker.holds P) + p.started.countP P =
      p.count (Worker.holds P) + (p.started ++ [j]).countP P := by
  have hcount := put_count (p := { p with queue, started := p.started ++ [j] }) (i := i)
    (w := .running j) (Worker.holds P) rfl
  rw [holds_of_idle (idle_of_seeking hi)] at hcount
  change _ + 0 = p.count _ + (P j).toNat at hcount
  rw [List.countP_append, List.countP_singleton]
  cases hP : P j <;> simp only [hP, Bool.toNat_true, Bool.toNat_false] at hcount <;>
    simp only [if_true, Bool.false_eq_true, if_false] <;> omega

theorem held_step (hp : step p e = some q)
    (h : ∀ i, e = .work i → (p.workers i).holds P = false) :
    q.count (Worker.holds P) + p.started.countP P =
      p.count (Worker.holds P) + q.started.countP P := by
  cases stepped hp with
  | push hopen | done hopen hentering => rfl
  | @pushOwn i j l hw =>
    rw [put_holds (p := p.enqueue j) (w := .pushing l) hw rfl]
    rfl
  | notify hentering hfree hwake =>
    rw [wake_holds hwake, (wake_same hwake).1]
    rfl
  | @notifyOwn i l woken q hw hfree hwake =>
    rw [wake_holds hwake, (wake_same hwake).1, put_holds (w := .running l) hw rfl, put_started]
  | take hi hq => exact take_holds hi
  | @finish i j hw =>
    have hi := h i rfl
    rw [hw] at hi
    rw [put_holds (w := .popping) hw hi.symm, put_started]
  | spurious hw => rw [put_holds (w := .testing) hw rfl, put_started]
  | look hw hq => rw [put_holds (w := .testing) hw rfl, put_started]
  | hold hw hq => rw [put_holds (w := .tested) hw rfl, put_started]
  | rest hw => rw [put_holds hw (by split <;> rfl), put_started]
  | notifyAll hdone htold hfree =>
    have hsame : ∀ w : Worker J, w.woken.holds P = w.holds P := fun w => by cases w <;> rfl
    simp only [Pool.count, hsame]

theorem started_step (hp : step p e = some q) : p.started <+: q.started := by
  cases stepped hp with
  | take hi hq => exact List.prefix_append ..
  | notify hentering hfree hwake => exact (wake_same hwake).1 ▸ List.prefix_refl _
  | notifyOwn hw hfree hwake => exact (wake_same hwake).1 ▸ List.prefix_refl _
  | push hopen | pushOwn hw | spurious hw | look hw hq | hold hw hq | finish hw | rest hw
  | done hopen hentering | notifyAll hdone htold hfree => exact List.prefix_refl _

def Event.posted : Event J n → Option J
  | .push _ j => some j
  | .notify _ _ | .spurious _ | .work _ | .done | .notifyAll => none

theorem posted_step (hp : step p e = some q) : q.pushed = p.pushed ++ e.posted.toList := by
  cases stepped hp with
  | push hopen | pushOwn hw => rfl
  | notify hentering hfree hwake =>
    rw [(wake_same hwake).2.1]
    exact (List.append_nil _).symm
  | notifyOwn hw hfree hwake =>
    rw [(wake_same hwake).2.1]
    exact (List.append_nil _).symm
  | take hi hq | spurious hw | look hw hq | hold hw hq | finish hw | rest hw | done hopen hentering
  | notifyAll hdone htold hfree => exact (List.append_nil _).symm

theorem posted_run {es : List (Event J n)} (h : run step {} es = some p) :
    p.pushed = es.filterMap (·.posted) := by
  induction es using List.reverseRecOn generalizing p with
  | nil =>
    cases h
    rfl
  | append_singleton es e ih =>
    obtain ⟨p₁, h₁, he⟩ := run_snoc_inv h
    rw [posted_step he, ih h₁, List.filterMap_append]
    cases hposted : e.posted <;> simp [hposted]

/-- The jobs of `P` that are posted and have not returned. -/
def Pool.pending (p : Pool J n) (P : J → Bool) : Nat :=
  p.count (Worker.holds P) + p.queue.countP P

theorem pending_step (hp : step p e = some q) (hlive : Live p) (hlive' : Live q)
    (h : ∀ i, e = .work i → (p.workers i).holds P = false) :
    q.pending P = p.pending P + e.posted.toList.countP P := by
  have hheld := held_step hp h
  have hpushed : q.pushed.countP P = p.pushed.countP P + e.posted.toList.countP P := by
    rw [posted_step hp, List.countP_append]
  rw [hlive.order, hlive'.order, List.countP_append, List.countP_append] at hpushed
  simp only [Pool.pending]
  omega

/-- The jobs in the hands of the threads have been started. -/
def Held (p : Pool J n) : Prop :=
  ∀ i j, p.workers i = .running j ∨ p.workers i = .pushing j → j ∈ p.started

theorem held_put (h : Held p) (hw : ∀ j, w = .running j ∨ w = .pushing j → j ∈ p.started) :
    Held (p.put i w) := by
  intro k j hk
  by_cases hki : k = i
  · subst hki
    rw [put_same] at hk
    exact hw j hk
  · rw [put_other hki] at hk
    exact h k j hk

theorem held_idle (h : Held p) (hw : w.isBusy = false) : Held (p.put i w) :=
  held_put h fun j hj => by
    rcases hj with rfl | rfl <;> cases hw

theorem held_wake {woken : Option (Fin n)} (h : Held p) (hp : p.wake woken = some q) : Held q := by
  cases woken with
  | none => exact (wake_none hp).2 ▸ h
  | some i => exact (wake_some hp).2 ▸ held_idle h rfl

theorem held_keep (h : Held p) (hp : step p e = some q) : Held q := by
  cases stepped hp with
  | push hopen | done hopen hentering => exact h
  | @pushOwn i j l hw =>
    refine held_put (p := p.enqueue j) h fun j' hj' => ?_
    obtain rfl : l = j' := by simpa using hj'
    exact h i l (.inl hw)
  | notify hentering hfree hwake =>
    exact held_wake (p := { p with entering := p.entering - 1 }) h hwake
  | @notifyOwn i l woken q hw hfree hwake =>
    refine held_wake (held_put h fun j' hj' => ?_) hwake
    obtain rfl : l = j' := by simpa using hj'
    exact h i l (.inr hw)
  | @take i j queue hi hq =>
    refine held_put (p := { p with queue, started := p.started ++ [j] })
      (fun k j' hk => List.mem_append_left _ (h k j' hk)) fun j' hj' => ?_
    obtain rfl : j = j' := by simpa using hj'
    exact List.mem_append_right _ (List.mem_singleton_self j)
  | spurious hw | look hw hq | hold hw hq | finish hw => exact held_idle h rfl
  | rest hw => exact held_idle h (by split <;> rfl)
  | notifyAll hdone htold hfree =>
    intro k j hk
    refine h k j ?_
    cases hw : p.workers k <;> simp_all [Worker.woken]

theorem step_isDone (hp : step p e = some q) : q.isDone = p.isDone ∨ e = .done := by
  cases stepped hp with
  | done hopen hentering => exact .inr rfl
  | notify hentering hfree hwake => exact .inl (wake_same hwake).2.2.2
  | notifyOwn hw hfree hwake => exact .inl (wake_same hwake).2.2.2
  | push hopen | pushOwn hw | take hi hq | spurious hw | look hw hq | hold hw hq | finish hw
  | rest hw | notifyAll hdone htold hfree => exact .inl rfl

/-- The thread of the pool whose job takes this step. -/
def Event.caller : Event J n → Option (Fin n)
  | .push caller _ | .notify caller _ => caller
  | .spurious _ | .work _ | .done | .notifyAll => none

/-- The thread's job starts or returns. -/
def Turned (p q : Pool J n) (k : Fin n) : Prop :=
  (∃ j, p.workers k = .running j ∧ q.workers k = .popping) ∨
    ∃ j, (p.workers k).isBusy = false ∧ q.started = p.started ++ [j] ∧ q.workers k = .running j

/-- The thread keeps its job, or stays without one. -/
def Keeps (p q : Pool J n) (k : Fin n) : Prop :=
  q.workers k = p.workers k ∨ ((p.workers k).isBusy = false ∧ (q.workers k).isBusy = false)

theorem keeps_idle (hi : (p.workers i).isBusy = false) (hw : w.isBusy = false) (k : Fin n) :
    Keeps p (p.put i w) k := by
  by_cases hki : k = i
  · subst hki
    exact .inr ⟨hi, by rwa [put_same]⟩
  · exact .inl (put_other hki)

theorem keeps_wake {woken : Option (Fin n)} (hp : p.wake woken = some q) (k : Fin n) :
    Keeps p q k := by
  cases woken with
  | none => exact .inl (by rw [(wake_none hp).2])
  | some i =>
    obtain ⟨hi, rfl⟩ := wake_some hp
    exact keeps_idle (by rw [waiting_of hi]; rfl) rfl k

theorem wake_busy {woken : Option (Fin n)} (hp : p.wake woken = some q)
    (hi : (p.workers i).isBusy) : q.workers i = p.workers i := by
  rcases keeps_wake hp i with hsame | ⟨hidle, -⟩
  · exact hsame
  · rw [hidle] at hi
    cases hi

theorem turned_step (hp : step p e = some q) (hcaller : e.caller = none) (k : Fin n) :
    Keeps p q k ∨ (e = .work k ∧ Turned p q k) := by
  cases stepped hp with
  | push hopen | done hopen hentering => exact .inl (.inl rfl)
  | pushOwn hw | notifyOwn hw hfree hwake => cases hcaller
  | notify hentering hfree hwake => exact .inl (keeps_wake hwake k)
  | @take i j queue hi hq =>
    by_cases hki : k = i
    · subst hki
      exact .inr ⟨rfl, .inr ⟨j, idle_of_seeking hi, rfl, put_same⟩⟩
    · exact .inl (.inl (put_other hki))
  | @finish i j hw =>
    by_cases hki : k = i
    · subst hki
      exact .inr ⟨rfl, .inl ⟨j, hw, put_same⟩⟩
    · exact .inl (.inl (put_other hki))
  | spurious hw | look hw hq | hold hw hq => exact .inl (keeps_idle (by rw [hw]; rfl) rfl k)
  | rest hw => exact .inl (keeps_idle (by rw [hw]; rfl) (by split <;> rfl) k)
  | notifyAll hdone htold hfree =>
    cases hw : p.workers k with
    | waiting => exact .inl (.inr ⟨by rw [hw]; rfl, by simp only [hw]; rfl⟩)
    | popping | running j | pushing j | testing | tested | ended =>
      exact .inl (.inl (by simp only [hw]; rfl))

/-! ## The threads come to rest -/

/-- The steps that the pool takes by itself. -/
def Event.own : Event J n → Bool
  | .notify _ _ | .work _ | .notifyAll => true
  | .push _ _ | .spurious _ | .done => false

/-- Nothing more happens in the pool by itself, but that a job of `stays` may return. -/
def Resting (stays : J → Bool) (p : Pool J n) : Prop :=
  ∀ e, e.own → (∀ i, e = .work i → (p.workers i).holds stays = false) → step p e = none

/-- The steps that a thread has before it, if nobody posts a job. -/
def Worker.left : Worker J → Nat
  | .popping => 3
  | .running _ => 4
  | .pushing _ => 7
  | .testing => 2
  | .tested => 1
  | .waiting | .ended => 0

def Pool.left (p : Pool J n) : Nat :=
  (∑ i, (p.workers i).left) + 3 * p.entering + 3 * p.queue.length +
    bif p.told then 0 else 2 * n + 1

variable {stays : J → Bool}

theorem resting_work (h : Resting stays p) (hi : (p.workers i).holds stays = false) :
    p.work i = none :=
  h (.work i) rfl fun k hk => by
    cases hk
    exact hi

theorem free_of_resting (h : Resting stays p) : p.free := by
  refine free_iff.mpr fun i => ?_
  cases hw : p.workers i with
  | tested =>
    have hwork := resting_work h (i := i) (by rw [hw]; rfl)
    simp [Pool.work, hw] at hwork
  | popping | running j | pushing j | testing | waiting | ended => rfl

theorem worker_of_resting (h : Resting stays p) (i : Fin n) :
    p.workers i = .waiting ∨ p.workers i = .ended ∨ ∃ j, stays j ∧ p.workers i = .running j := by
  have hfree := free_of_resting h
  cases hw : p.workers i with
  | waiting => exact .inl rfl
  | ended => exact .inr (.inl rfl)
  | running j =>
    refine .inr (.inr ⟨j, ?_, rfl⟩)
    by_contra hstays
    have hwork := resting_work h (i := i) (by rw [hw]; simpa [Worker.holds] using hstays)
    simp [Pool.work, hw] at hwork
  | pushing k =>
    obtain ⟨woken, q, hq⟩ := exists_wake (p.put i (.running k))
    have hnotify := h (.notify (some i) woken) rfl nofun
    simp [step, hw, hfree, hq] at hnotify
  | popping | testing | tested =>
    have hwork := resting_work h (i := i) (by rw [hw]; rfl)
    simp [Pool.work, hw, hfree] at hwork

theorem entering_of_resting (h : Resting stays p) : p.entering = 0 := by
  obtain ⟨woken, q, hq⟩ := exists_wake { p with entering := p.entering - 1 }
  have hnotify := h (.notify none woken) rfl nofun
  by_contra hne
  simp [step, free_of_resting h, Nat.pos_of_ne_zero hne, hq] at hnotify

theorem count_eq_zero {P : Worker J → Bool} (h : ∀ i, P (p.workers i) = false) :
    p.count P = 0 :=
  Finset.sum_eq_zero fun i _ => by rw [h i, Bool.toNat_false]

theorem queue_of_resting (hl : Live p) (hm : Met p) (h : Resting stays p)
    (hidle : (∃ i, p.workers i = .waiting) ∨ ∀ i j, p.workers i ≠ .running j) : p.queue = [] := by
  have hworkers := worker_of_resting h
  rcases hidle with ⟨i, hi⟩ | hrunning
  · have hpushing : p.count Worker.isPushing = 0 := count_eq_zero fun k => by
      rcases hworkers k with hw | hw | ⟨j, -, hw⟩ <;> rw [hw] <;> rfl
    have hseeking : p.count Worker.isSeeking = 0 := count_eq_zero fun k => by
      rcases hworkers k with hw | hw | ⟨j, -, hw⟩ <;> rw [hw] <;> rfl
    rcases hm.met with hmet | hnone
    · rw [Pool.unnotified, entering_of_resting h, hpushing, hseeking] at hmet
      exact List.eq_nil_of_length_eq_zero (Nat.le_zero.mp hmet)
    · exact absurd (hnone i) (by simp [hi, Worker.isWaiting])
  · by_contra hne
    rcases hl.kept hne with hentering | ⟨i, hi, -⟩
    · exact absurd (entering_of_resting h) (Nat.ne_of_gt hentering)
    · rcases hworkers i with hw | hw | ⟨j, -, hw⟩
      · simp [hw, Worker.isAwake] at hi
      · simp [hw, Worker.isAwake] at hi
      · exact hrunning i j hw

theorem told_of_resting (h : Resting stays p) (hdone : p.isDone) : p.told := by
  have hall := h .notifyAll rfl nofun
  by_contra htold
  simp [step, hdone, htold, free_of_resting h] at hall

theorem worker_at_rest (hl : Live p) (h : Resting stays p) (i : Fin n) :
    p.workers i = (if p.isDone then .ended else .waiting) ∨
      ∃ j, stays j ∧ p.workers i = .running j := by
  rcases worker_of_resting h i with hw | hw | hstays
  · cases hdone : p.isDone with
    | true =>
      have hwait := (hl.told (told_of_resting h hdone)).2 i
      simp [hw, Worker.isWaiting] at hwait
    | false => exact .inl (by simpa using hw)
  · exact .inl (by simpa [hl.ended i hw] using hw)
  · exact .inr hstays

theorem put_left : (p.put i w).left + (p.workers i).left = p.left + w.left := by
  have hsum := put_sum (p := p) (i := i) (w := w) Worker.left
  simp only [Pool.left, put_entering, put_queue, put_told]
  omega

theorem seeking_left (h : w.isSeeking) : 2 ≤ w.left := by
  cases w <;> simp_all [Worker.left, Worker.isSeeking]

theorem take_left {queue : List J} (hi : (p.workers i).isSeeking) (hq : p.queue = j :: queue) :
    (({ p with queue, started := p.started ++ [j] } : Pool J n).put i (.running j)).left <
      p.left := by
  have htake := put_left (p := { p with queue, started := p.started ++ [j] }) (i := i)
    (w := .running j)
  have hqueue : ({ p with queue, started := p.started ++ [j] } : Pool J n).left + 3 = p.left := by
    simp only [Pool.left, hq, List.length_cons]
    omega
  have hseeking := seeking_left hi
  simp only [show (Worker.running j).left = 4 from rfl] at htake
  omega

theorem left_put {v : Worker J} (hw : p.workers i = v) (h : w.left < v.left) :
    (p.put i w).left < p.left := by
  have := put_left (p := p) (i := i) (w := w)
  rw [hw] at this
  omega

theorem wake_left {woken : Option (Fin n)} (hp : p.wake woken = some q) : q.left ≤ p.left + 2 := by
  cases woken with
  | none =>
    rw [(wake_none hp).2]
    omega
  | some i =>
    rw [(wake_some hp).2]
    have := put_left (p := p) (i := i) (w := .testing)
    simp only [Worker.left] at this
    omega

theorem notifyAll_left (htold : p.told = false) :
    ({ p with workers := fun i => (p.workers i).woken, told := true } : Pool J n).left <
      p.left := by
  have hsum : (∑ i, ((p.workers i).woken).left) ≤ ∑ i, ((p.workers i).left + 2) :=
    Finset.sum_le_sum fun i _ => by cases p.workers i <;> simp [Worker.woken, Worker.left]
  have htwo : ∑ _i : Fin n, 2 = n * 2 := by
    rw [Finset.sum_const_nat fun _ _ => rfl, Finset.card_univ, Fintype.card_fin]
  rw [Finset.sum_add_distrib, htwo] at hsum
  simp only [Pool.left, htold, cond_true, cond_false]
  omega

theorem own_left (he : e.own) (hp : step p e = some q) : q.left < p.left := by
  cases stepped hp with
  | push hopen | pushOwn hw | spurious hw | done hopen hentering => cases he
  | notify hentering hfree hwake =>
    have := wake_left hwake
    simp only [Pool.left] at this ⊢
    omega
  | @notifyOwn i l woken q hw hfree hwake =>
    have hwoken := wake_left hwake
    have hput := put_left (p := p) (i := i) (w := .running l)
    simp only [hw, Worker.left] at hput
    omega
  | take hi hq => exact take_left hi hq
  | look hw hq | hold hw hq | finish hw => exact left_put hw (by simp [Worker.left])
  | rest hw => exact left_put hw (by split <;> simp [Worker.left])
  | notifyAll hdone htold hfree => exact notifyAll_left htold

theorem enqueue_left : (p.enqueue j).left = p.left + 3 := by
  simp only [Pool.left, Pool.enqueue, List.length_append, List.length_singleton]
  omega

theorem other_left (he : e.own = false) (hp : step p e = some q) : q.left ≤ p.left + 6 := by
  cases stepped hp with
  | push hopen =>
    simp only [Pool.left, Pool.enqueue, List.length_append, List.length_singleton]
    omega
  | @pushOwn i j l hw =>
    have hput := put_left (p := p.enqueue j) (i := i) (w := .pushing l)
    rw [show (p.enqueue j).workers i = .running l from hw, enqueue_left] at hput
    simp only [Worker.left] at hput
    omega
  | @spurious i hw =>
    have hput := put_left (p := p) (i := i) (w := .testing)
    simp only [hw, Worker.left] at hput
    omega
  | done hopen hentering => exact Nat.le_add_right ..
  | notify hentering hfree hwake | notifyOwn hw hfree hwake | take hi hq | look hw hq | hold hw hq
  | finish hw | rest hw | notifyAll hdone htold hfree => cases he

theorem left_start : ({} : Pool J n).left = 5 * n + 1 := by
  have hthree : ∑ _i : Fin n, 3 = n * 3 := by
    rw [Finset.sum_const_nat fun _ _ => rfl, Finset.card_univ, Fintype.card_fin]
  simp only [Pool.left, Worker.left, hthree, List.length_nil, cond_false]
  omega

theorem resting_of (hworkers : ∀ i, p.workers i = .waiting ∨ p.workers i = .ended)
    (hentering : p.entering = 0) (htold : p.isDone → p.told) : Resting stays p := by
  intro e he _
  cases e with
  | notify caller woken =>
    cases caller with
    | none => simp [step, hentering]
    | some i => rcases hworkers i with hw | hw <;> simp [step, hw]
  | work i => rcases hworkers i with hw | hw <;> simp [step, Pool.work, hw]
  | notifyAll =>
    simp only [step, ite_eq_right_iff, reduceCtorEq, imp_false]
    intro hnotify
    simp [htold hnotify.1] at hnotify
  | push caller j | spurious i | done => cases he

/-- **The pool.** Jobs are started in the order in which they were posted, each of them once. The
steps that the threads take by themselves are bounded by the other ones. Once none of them is
possible, but that a job of `stays` returns, each thread runs such a job, or it waits, or it has
ended with the pool; and all jobs have been started, if a thread waits or if none runs a job. -/
theorem pool_settles {es : List (Event J n)} (hn : 0 < n) (h : run step {} es = some p)
    (stays : J → Bool) :
    es.filterMap (·.posted) = p.started ++ p.queue ∧
      es.countP (·.own) ≤ 5 * n + 1 + 6 * es.countP (!·.own) ∧
      (Resting stays p →
        (∀ i, p.workers i = (if p.isDone then .ended else .waiting) ∨
          ∃ j, stays j ∧ p.workers i = .running j) ∧
        ((∃ i, p.workers i = .waiting) ∨ (∀ i j, p.workers i ≠ .running j) →
          p.started = es.filterMap (·.posted))) := by
  have hlive := live_run hn h
  have horder : es.filterMap (·.posted) = p.started ++ p.queue := by
    rw [← posted_run h, hlive.order]
  have hcount : es.countP (·.own) + p.left ≤ ({} : Pool J n).left + 6 * es.countP (!·.own) :=
    countP_own_le (J := fun _ => True) (G := fun _ => True) (fun _ _ _ _ _ _ => trivial)
      (fun _ _ _ _ _ he hu => own_left he hu) (fun _ _ _ _ _ he hu => other_left he hu) trivial
      (fun _ _ => trivial) h
  rw [left_start] at hcount
  refine ⟨horder, by omega, fun hrest => ⟨worker_at_rest hlive hrest, fun hidle => ?_⟩⟩
  rw [horder, queue_of_resting hlive (met_run h) hrest hidle, List.append_nil]

/-! ### Two threads -/

abbrev t0 : Fin 2 := 0

abbrev t1 : Fin 2 := 1

/-- The second job comes while a thread holds the mutex and has found the queue empty. -/
abbrev latePush : List (Event Nat 2) :=
  [.push none 7, .work t0, .notify none none, .work t1, .work t1, .push none 8, .work t1, .work t0,
    .notify none (some t1), .work t0, .work t1, .work t1, .work t0, .done, .notifyAll, .work t0,
    .work t0, .work t0, .work t1, .work t1]

theorem pool_settles_late : ∃ p, run step {} latePush = some p ∧ Resting (· == 9) p ∧
    [7, 8] = p.started ++ p.queue ∧ latePush.countP (·.own) ≤ 29 ∧ p.started = [7, 8] ∧
      ∀ i, p.workers i = .ended ∨ ∃ j, (j == 9) = true ∧ p.workers i = .running j := by
  obtain ⟨p, hp⟩ : ∃ p, run step {} latePush = some p := ⟨_, rfl⟩
  have hworkers : ∀ i, (run step {} latePush).map (·.workers i) = some .ended := by decide
  have hflags : (run step {} latePush).map (fun p => (p.entering, p.told, p.isDone)) =
      some (0, true, true) := by decide
  simp only [hp, Option.map_some, Option.some.injEq, Prod.mk.injEq] at hworkers hflags
  obtain ⟨hentering, htold, hdone⟩ := hflags
  have hrest : Resting (· == 9) p :=
    resting_of (fun i => .inr (hworkers i)) hentering fun _ => htold
  obtain ⟨horder, hcount, hend⟩ := pool_settles (by decide) hp (· == 9)
  obtain ⟨hall, hstarted⟩ := hend hrest
  have hidle : ∀ i j, p.workers i ≠ .running j := fun i j => by simp [hworkers i]
  refine ⟨p, hp, hrest, horder, hcount, hstarted (.inr hidle), fun i => ?_⟩
  have hi := hall i
  rwa [hdone] at hi

end Owls.ThreadPool
