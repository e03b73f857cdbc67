import Owls.Kafka

/-!
# The producer of `KafkaManager`

`Produce` puts a message into a queue, and the thread of the producer takes it out. A thread
that waits at the empty queue is handed the next message, or nothing by `wakeUpAll`. `Stop` stores
`Running_` first and wakes up later: the thread goes on between the two.
-/

open Machine

namespace Owls.Kafka

/-- How far the thread is in `KafkaProducer::run`. -/
inductive Worker where
  | idle
  /-- Before `Running_` is set. -/
  | starting
  /-- At `waitDequeueNotification`. -/
  | taking
  | waiting
  /-- At the condition of the loop. -/
  | holds (note : Option KafkaMessage)
  | sending (m : KafkaMessage)
  | done
deriving DecidableEq

/-- How far the caller of `Stop` is. -/
inductive Stopper where
  | away
  /-- Before `wakeUpAll`. -/
  | waking
  /-- At `join`. -/
  | joining
deriving DecidableEq

structure KafkaProducer where
  running : Bool := false
  queue : List KafkaMessage := []
  worker : Worker := .idle
  stopper : Stopper := .away
  /-- What Kafka was given, in this order. -/
  produced : List KafkaMessage := []

inductive ProducerEvent where
  | produce (m : KafkaMessage)
  | start
  /-- `Stop` is called, and stores `Running_`. -/
  | stop
  | wakeUpAll
  /-- `Stop` returns. -/
  | join
  /-- The next step of the thread. -/
  | work
deriving DecidableEq

def KafkaProducer.produce (p : KafkaProducer) (m : KafkaMessage) : KafkaProducer :=
  match p.worker with
  | .waiting => { p with worker := .holds (some m) }
  | .idle | .starting | .taking | .holds _ | .sending _ | .done =>
    { p with queue := p.queue ++ [m] }

/-- To start a thread that runs is an error. -/
def KafkaProducer.start (p : KafkaProducer) : Option KafkaProducer :=
  if p.running then some p
  else if p.worker = .idle then some { p with running := true, worker := .starting }
  else none

def KafkaProducer.stop (p : KafkaProducer) : KafkaProducer :=
  if p.running then { p with running := false, stopper := .waking } else p

def KafkaProducer.wakeUpAll (p : KafkaProducer) : KafkaProducer :=
  { p with
    stopper := .joining
    worker := if p.worker = .waiting then .holds none else p.worker }

def KafkaProducer.work (p : KafkaProducer) : Option KafkaProducer :=
  match p.worker with
  | .starting => some { p with running := true, worker := .taking }
  | .taking =>
    match p.queue with
    | [] => some { p with worker := .waiting }
    | m :: queue => some { p with queue, worker := .holds (some m) }
  | .holds none => some { p with worker := .done }
  | .holds (some m) => some { p with worker := if p.running then .sending m else .done }
  | .sending m => some { p with worker := .taking, produced := p.produced ++ [m] }
  | .idle | .waiting | .done => none

/-- One thread starts and stops the producer, so that it does neither while it is in `Stop`. To
join a thread that is not there is an error. -/
def producerStep (p : KafkaProducer) : ProducerEvent → Option KafkaProducer
  | .produce m => some (p.produce m)
  | .start => if p.stopper = .away then p.start else none
  | .stop => if p.stopper = .away then some p.stop else none
  | .wakeUpAll => if p.stopper = .waking then some p.wakeUpAll else none
  | .join =>
    if p.stopper = .joining ∧ p.worker = .done then
      some { p with stopper := .away, worker := .idle }
    else none
  | .work => p.work

def ProducerEvent.posted : ProducerEvent → Option KafkaMessage
  | .produce m => some m
  | .start | .stop | .wakeUpAll | .join | .work => none

def Worker.inHand : Worker → List KafkaMessage
  | .holds (some m) | .sending m => [m]
  | .idle | .starting | .taking | .waiting | .holds none | .done => []

variable {p p' : KafkaProducer} {posted taken : List KafkaMessage} {stops : Nat}

/-! ## What was posted -/

/-- The thread has been told to stop, and has not yet ended. -/
def KafkaProducer.pending (p : KafkaProducer) : Nat :=
  if p.running ∨ p.worker = .idle ∨ p.worker = .done then 0 else 1

/-- The posts are what the thread has `taken`, what it has in hand, and the queue. -/
structure Sound (posted taken : List KafkaMessage) (stops : Nat) (p : KafkaProducer) : Prop where
  order : posted = taken ++ p.worker.inHand ++ p.queue
  sublist : p.produced.Sublist taken
  lost : taken.length + p.pending ≤ p.produced.length + stops
  empty : p.worker = .waiting → p.queue = []

theorem sound_start : Sound [] [] 0 {} := ⟨rfl, .slnil, by decide, by decide⟩

theorem sound_produce (h : Sound posted taken stops p) (m : KafkaMessage) :
    Sound (posted ++ [m]) taken stops (p.produce m) := by
  cases hw : p.worker with
  | waiting =>
    have hp : p.produce m = { p with worker := .holds (some m) } := by
      simp only [KafkaProducer.produce, hw]
    have hpending : p.pending = (p.produce m).pending := by simp [KafkaProducer.pending, hw, hp]
    refine ⟨?_, by simpa [hp] using h.sublist, ?_, by simp [hp]⟩
    · rw [hp, h.order, h.empty hw]
      simp [Worker.inHand, hw]
    · rw [← hpending]
      simpa [hp] using h.lost
  | idle | starting | taking | holds note | sending m' | done =>
    have hp : p.produce m = { p with queue := p.queue ++ [m] } := by
      simp only [KafkaProducer.produce, hw]
    refine ⟨?_, by simpa [hp] using h.sublist, by simpa [hp, KafkaProducer.pending] using h.lost,
      by simp [hp, hw]⟩
    rw [hp, h.order]
    simp

theorem sound_work (h : Sound posted taken stops p) (hp : p.work = some p') :
    ∃ taken', Sound posted taken' stops p' := by
  obtain ⟨horder, hsub, hlost, hempty⟩ := h
  cases hw : p.worker with
  | idle | waiting | done => simp [KafkaProducer.work, hw] at hp
  | starting =>
    simp only [KafkaProducer.work, hw, Option.some.injEq] at hp
    subst hp
    refine ⟨taken, ?_, hsub, ?_, by simp⟩
    · simpa [Worker.inHand, hw] using horder
    · simp only [KafkaProducer.pending, true_or, if_true]
      omega
  | taking =>
    cases hq : p.queue with
    | nil =>
      simp only [KafkaProducer.work, hw, hq, Option.some.injEq] at hp
      subst hp
      refine ⟨taken, ?_, hsub, ?_, fun _ => rfl⟩
      · simpa [Worker.inHand, hw, hq] using horder
      · simpa [KafkaProducer.pending, hw] using hlost
    | cons m queue =>
      simp only [KafkaProducer.work, hw, hq, Option.some.injEq] at hp
      subst hp
      refine ⟨taken, ?_, hsub, ?_, by simp⟩
      · simpa [Worker.inHand, hw, hq] using horder
      · simpa [KafkaProducer.pending, hw] using hlost
  | holds note =>
    cases note with
    | none =>
      simp only [KafkaProducer.work, hw, Option.some.injEq] at hp
      subst hp
      refine ⟨taken, ?_, hsub, ?_, by simp⟩
      · simpa [Worker.inHand, hw] using horder
      · simp only [KafkaProducer.pending, or_true, if_true]
        omega
    | some m =>
      simp only [KafkaProducer.work, hw, Option.some.injEq] at hp
      subst hp
      by_cases hr : p.running
      · refine ⟨taken, ?_, hsub, ?_, by simp [hr]⟩
        · simpa [Worker.inHand, hw, hr] using horder
        · simpa [KafkaProducer.pending, hr] using hlost
      · -- The message is dropped, and it is the one that this stop can cost.
        refine ⟨taken ++ [m], ?_, hsub.trans (List.sublist_append_left ..), ?_, by simp [hr]⟩
        · simpa [Worker.inHand, hw, hr] using horder
        · simpa [KafkaProducer.pending, hr, hw] using hlost
  | sending m =>
    simp only [KafkaProducer.work, hw, Option.some.injEq] at hp
    subst hp
    refine ⟨taken ++ [m], ?_, hsub.append (.refl _), ?_, by simp⟩
    · simpa [Worker.inHand, hw] using horder
    · simp only [KafkaProducer.pending, hw, reduceCtorEq, or_false] at hlost ⊢
      simp only [List.length_append, List.length_singleton]
      omega

theorem sound_stop (h : Sound posted taken stops p) : Sound posted taken (stops + 1) p.stop := by
  obtain ⟨horder, hsub, hlost, hempty⟩ := h
  by_cases hr : p.running
  · have hp : p.stop = { p with running := false, stopper := .waking } := if_pos hr
    have hone : p.stop.pending ≤ 1 := by
      unfold KafkaProducer.pending
      split <;> decide
    rw [hp] at hone ⊢
    refine ⟨horder, hsub, ?_, hempty⟩
    simp only at hone ⊢
    omega
  · have hp : p.stop = p := if_neg hr
    rw [hp]
    exact ⟨horder, hsub, by omega, hempty⟩

theorem sound_wakeUpAll (h : Sound posted taken stops p) :
    Sound posted taken stops p.wakeUpAll := by
  obtain ⟨horder, hsub, hlost, hempty⟩ := h
  by_cases hw : p.worker = .waiting
  · have hp : p.wakeUpAll = { p with stopper := .joining, worker := .holds none } := by
      rw [KafkaProducer.wakeUpAll, if_pos hw]
    have hpending : p.wakeUpAll.pending = p.pending := by simp [KafkaProducer.pending, hw, hp]
    refine ⟨?_, by simpa [hp] using hsub, ?_, by simp [hp]⟩
    · simpa [hp, hw, Worker.inHand] using horder
    · rw [hpending]
      simpa [hp] using hlost
  · have hp : p.wakeUpAll = { p with stopper := .joining } := by
      rw [KafkaProducer.wakeUpAll, if_neg hw]
    rw [hp]
    exact ⟨horder, hsub, hlost, hempty⟩

theorem sound_begin (h : Sound posted taken stops p) (hp : p.start = some p') :
    Sound posted taken stops p' := by
  obtain ⟨horder, hsub, hlost, hempty⟩ := h
  unfold KafkaProducer.start at hp
  split at hp
  · cases hp
    exact ⟨horder, hsub, hlost, hempty⟩
  · split at hp
    · rename_i hidle
      cases hp
      refine ⟨?_, hsub, ?_, by simp⟩
      · simpa [Worker.inHand, hidle] using horder
      · simp only [KafkaProducer.pending, true_or, if_true]
        omega
    · cases hp

theorem sound_step {e : ProducerEvent} (h : Sound posted taken stops p)
    (he : producerStep p e = some p') :
    ∃ taken', Sound (posted ++ e.posted.toList) taken' (stops + if e = .stop then 1 else 0) p' := by
  cases e with
  | produce m =>
    cases he
    exact ⟨taken, sound_produce h m⟩
  | start =>
    simp only [producerStep, Option.ite_none_right_eq_some] at he
    have := sound_begin h he.2
    exact ⟨taken, by simpa [ProducerEvent.posted] using this⟩
  | stop =>
    simp only [producerStep, Option.ite_none_right_eq_some, Option.some.injEq] at he
    have := he.2 ▸ sound_stop h
    exact ⟨taken, by simpa [ProducerEvent.posted] using this⟩
  | wakeUpAll =>
    simp only [producerStep, Option.ite_none_right_eq_some, Option.some.injEq] at he
    have := he.2 ▸ sound_wakeUpAll h
    exact ⟨taken, by simpa [ProducerEvent.posted] using this⟩
  | join =>
    simp only [producerStep, Option.ite_none_right_eq_some, Option.some.injEq] at he
    obtain ⟨⟨-, hdone⟩, rfl⟩ := he
    obtain ⟨horder, hsub, hlost, -⟩ := h
    refine ⟨taken, ?_, hsub, ?_, by simp⟩
    · simpa [ProducerEvent.posted, Worker.inHand, hdone] using horder
    · simpa [KafkaProducer.pending, hdone] using hlost
  | work =>
    obtain ⟨taken', h'⟩ := sound_work h he
    exact ⟨taken', by simpa [ProducerEvent.posted] using h'⟩

theorem sound_run {es : List ProducerEvent} (h : run producerStep {} es = some p) :
    ∃ taken, Sound (es.filterMap (·.posted)) taken (es.count .stop) p := by
  induction es using List.reverseRecOn generalizing p with
  | nil =>
    cases h
    exact ⟨[], sound_start⟩
  | append_singleton es e ih =>
    obtain ⟨p₁, h₁, he⟩ := run_snoc_inv h
    obtain ⟨taken, hsound⟩ := ih h₁
    obtain ⟨taken', hsound'⟩ := sound_step hsound he
    refine ⟨taken', ?_⟩
    rw [List.filterMap_append, List.count_append, List.count_singleton]
    cases hposted : e.posted <;> simpa [hposted, List.filterMap_cons] using hsound'

/-- Where the thread is as long as nothing has told it to stop. -/
def Worker.Alive : Worker → Prop
  | .starting | .taking | .waiting | .holds (some _) | .sending _ => True
  | .idle | .holds none | .done => False

/-- The thread is handed nothing by `wakeUpAll` alone, it ends only under a `Stop`, and while
neither is there nor runs, there is no thread. -/
structure Phased (p : KafkaProducer) : Prop where
  told : p.worker = .holds none → p.stopper = .joining
  ended : p.worker = .done → p.stopper ≠ .away
  idle : p.stopper = .away → p.running = false → p.worker = .idle

@[simp] theorem produce_running (m : KafkaMessage) : (p.produce m).running = p.running := by
  unfold KafkaProducer.produce
  split <;> rfl

@[simp] theorem produce_stopper (m : KafkaMessage) : (p.produce m).stopper = p.stopper := by
  unfold KafkaProducer.produce
  split <;> rfl

@[simp] theorem produce_worker (m : KafkaMessage) :
    (p.produce m).worker = if p.worker = .waiting then .holds (some m) else p.worker := by
  unfold KafkaProducer.produce
  split
  · rename_i hw
    rw [if_pos hw]
  all_goals
    rename_i hw
    rw [hw, if_neg (by simp)]

theorem work_stopper (hp : p.work = some p') : p'.stopper = p.stopper := by
  unfold KafkaProducer.work at hp
  split at hp <;> try split at hp
  all_goals cases hp <;> rfl

theorem work_running (hp : p.work = some p') (hr : p.running) : p'.running := by
  unfold KafkaProducer.work at hp
  split at hp <;> try split at hp
  all_goals cases hp
  all_goals first | exact hr | rfl

theorem work_told (hp : p.work = some p') : p'.worker ≠ .holds none := by
  unfold KafkaProducer.work at hp
  split at hp <;> try split at hp
  all_goals cases hp
  all_goals simp

theorem work_ended (hp : p.work = some p') (hdone : p'.worker = .done) :
    p.worker = .holds none ∨ p.running = false := by
  unfold KafkaProducer.work at hp
  split at hp <;> try split at hp
  all_goals cases hp
  all_goals simp_all

theorem phased_step {e : ProducerEvent} (h : Phased p) (he : producerStep p e = some p') :
    Phased p' := by
  cases e with
  | produce m =>
    cases he
    refine ⟨fun hw => ?_, fun hw => ?_, fun hs hr => ?_⟩
    · rw [produce_worker] at hw
      split at hw
      · cases hw
      · simpa using h.told hw
    · rw [produce_worker] at hw
      split at hw
      · cases hw
      · simpa using h.ended hw
    · have hidle := h.idle (by simpa using hs) (by simpa using hr)
      rw [produce_worker, hidle, if_neg (by simp)]
  | start =>
    simp only [producerStep, Option.ite_none_right_eq_some, KafkaProducer.start] at he
    obtain ⟨-, he⟩ := he
    split at he
    · cases he
      exact h
    · simp only [Option.ite_none_right_eq_some, Option.some.injEq] at he
      obtain ⟨-, rfl⟩ := he
      exact ⟨nofun, nofun, nofun⟩
  | stop =>
    simp only [producerStep, Option.ite_none_right_eq_some, Option.some.injEq,
      KafkaProducer.stop] at he
    obtain ⟨hs, he⟩ := he
    split at he
    · subst he
      exact ⟨fun hw => absurd ((h.told hw).symm.trans hs) (by simp), fun _ => nofun, nofun⟩
    · subst he
      exact h
  | wakeUpAll =>
    simp only [producerStep, Option.ite_none_right_eq_some, Option.some.injEq] at he
    obtain ⟨-, rfl⟩ := he
    exact ⟨fun _ => rfl, fun _ => nofun, nofun⟩
  | join =>
    simp only [producerStep, Option.ite_none_right_eq_some, Option.some.injEq] at he
    obtain ⟨-, rfl⟩ := he
    exact ⟨nofun, nofun, fun _ _ => rfl⟩
  | work =>
    have hs := work_stopper he
    -- Without `Running_` and without a `Stop` there is no thread that could take a step.
    have hstuck (hr : p.running = false) (haway : p.stopper = .away) : False := by
      have hw := h.idle haway hr
      simp [producerStep, KafkaProducer.work, hw] at he
    refine ⟨fun hw => absurd hw (work_told he), fun hdone haway => ?_, fun haway hr => ?_⟩
    · rcases work_ended he hdone with hnone | hr
      · exact absurd ((h.told hnone).symm.trans (hs.symm.trans haway)) (by simp)
      · exact hstuck hr (hs.symm.trans haway)
    · cases hrun : p.running with
      | false => exact (hstuck hrun (hs.symm.trans haway)).elim
      | true => exact absurd (work_running he hrun) (by simp [hr])

theorem phased_run {es : List ProducerEvent} (h : run producerStep {} es = some p) :
    Phased p := by
  have hall : Always producerStep Phased {} es :=
    always_of_step ⟨nofun, nofun, fun _ _ => rfl⟩ (fun _ _ _ hI he => phased_step hI he) es
  exact hall.here h

theorem Phased.alive (h : Phased p) (hs : p.stopper = .away) (hthread : p.worker ≠ .idle) :
    p.worker.Alive := by
  cases hw : p.worker with
  | idle => exact hthread hw
  | done => exact h.ended hw hs
  | holds note =>
    cases note with
    | none => exact absurd ((h.told hw).symm.trans hs) (by simp)
    | some m => trivial
  | starting | taking | waiting | sending m => trivial

/-- A `Stop` that comes too early leaves `Running_` set, and nobody at the queue. -/
example : run producerStep {} [.start, .stop, .work, .work, .wakeUpAll, .work, .join, .start,
    .produce ⟨"state", "1", "a"⟩] =
      some { running := true, queue := [⟨"state", "1", "a"⟩] } := rfl

/-- `Stop` gets past its `join` after some steps of the thread, when it goes on to `wakeUpAll`. -/
def Returns (p : KafkaProducer) : Prop :=
  ∃ k p', run producerStep p (.wakeUpAll :: List.replicate k .work ++ [.join]) = some p'

/-- At `wakeUpAll`, the thread waits or has ended, or is on its way to the condition of the loop
with `Running_` still false. -/
def KafkaProducer.Ends (p : KafkaProducer) : Prop :=
  p.worker = .waiting ∨ p.worker = .done ∨ p.running = false ∧
    ((∃ m, p.worker = .holds (some m)) ∨
      p.queue ≠ [] ∧ (p.worker = .taking ∨ ∃ m, p.worker = .sending m))

/-- When `Stop` is called, the thread has begun, and is not on its way to an empty queue. -/
def KafkaProducer.Noticed (p : KafkaProducer) : Prop :=
  p.worker ≠ .starting ∧ (p.queue = [] → p.worker ≠ .taking ∧ ∀ m, p.worker ≠ .sending m)

/-- There is no thread, or it goes on, or it waits where nobody will wake it. -/
def Endless (p : KafkaProducer) : Prop :=
  p.worker = .idle ∨ p.worker = .starting ∨ (p.running ∧ p.worker.Alive) ∨
    (p.queue = [] ∧ (p.worker = .taking ∨ p.worker = .waiting ∨ ∃ m, p.worker = .sending m))

theorem alive_work (hr : p.running) (h : p.worker.Alive) (hp : p.work = some p') :
    p'.worker.Alive ∧ p'.running := by
  cases hw : p.worker with
  | idle | waiting | done => simp [KafkaProducer.work, hw] at hp
  | starting | sending m =>
    simp only [KafkaProducer.work, hw, Option.some.injEq] at hp
    subst hp
    exact ⟨trivial, by simp [hr]⟩
  | taking =>
    cases hq : p.queue <;>
    · simp only [KafkaProducer.work, hw, hq, Option.some.injEq] at hp
      subst hp
      exact ⟨trivial, hr⟩
  | holds note =>
    cases note with
    | none =>
      rw [hw] at h
      exact h.elim
    | some m =>
      simp only [KafkaProducer.work, hw, hr, if_true, Option.some.injEq] at hp
      subst hp
      exact ⟨trivial, rfl⟩

theorem endless_work (h : Endless p) (hp : p.work = some p') : Endless p' := by
  rcases h with hw | hw | ⟨hr, hw⟩ | ⟨hq, hw | hw | ⟨m, hw⟩⟩
  · simp [KafkaProducer.work, hw] at hp
  · simp only [KafkaProducer.work, hw, Option.some.injEq] at hp
    subst hp
    exact .inr (.inr (.inl ⟨rfl, trivial⟩))
  · obtain ⟨hw', hr'⟩ := alive_work hr hw hp
    exact .inr (.inr (.inl ⟨hr', hw'⟩))
  · simp only [KafkaProducer.work, hw, hq, Option.some.injEq] at hp
    subst hp
    exact .inr (.inr (.inr ⟨rfl, .inr (.inl rfl)⟩))
  · simp [KafkaProducer.work, hw] at hp
  · simp only [KafkaProducer.work, hw, Option.some.injEq] at hp
    subst hp
    exact .inr (.inr (.inr ⟨hq, .inl rfl⟩))

theorem Endless.not_done (h : Endless p) : p.worker ≠ .done := by
  rcases h with hw | hw | ⟨-, hw⟩ | ⟨-, hw | hw | ⟨m, hw⟩⟩ <;> intro hdone <;> rw [hdone] at hw <;>
    cases hw

theorem work_run {I : KafkaProducer → Prop} (hI : ∀ p p', I p → p.work = some p' → I p')
    (h : I p) {k : Nat} (hp : run producerStep p (List.replicate k .work) = some p') : I p' := by
  have hall : Always producerStep I p (List.replicate k .work) := by
    refine always_of_prefix h fun q e hpre t u _ hu ht => ?_
    have he : e ∈ List.replicate k ProducerEvent.work :=
      hpre.subset (List.mem_append_right q (List.mem_singleton_self e))
    rw [List.eq_of_mem_replicate he] at hu
    exact hI t u ht hu
  exact hall.here hp

theorem wakeUpAll_of_ne (hw : p.worker ≠ .waiting) :
    p.wakeUpAll = { p with stopper := .joining } := by
  rw [KafkaProducer.wakeUpAll, if_neg hw]

theorem endless_wakeUpAll (h : Phased p) (hs : p.stopper = .waking) (hends : ¬ p.Ends) :
    Endless p.wakeUpAll := by
  simp only [KafkaProducer.Ends, not_or, not_and, not_exists] at hends
  obtain ⟨hwaiting, hdone, hon⟩ := hends
  rw [wakeUpAll_of_ne hwaiting]
  -- Nothing below looks at how far `Stop` is.
  change Endless p
  have hgoes (halive : p.worker.Alive)
      (hoff : p.running = false →
        p.queue = [] ∧ (p.worker = .taking ∨ ∃ m, p.worker = .sending m)) : Endless p := by
    cases hr : p.running with
    | true => exact .inr (.inr (.inl ⟨hr, halive⟩))
    | false => exact .inr (.inr (.inr ⟨(hoff hr).1, (hoff hr).2.imp_right .inr⟩))
  have hempty (hr : p.running = false) (hw : p.worker = .taking ∨ ∃ m, p.worker = .sending m) :
      p.queue = [] := by
    by_contra hq
    obtain ⟨htaking, hsending⟩ := (hon hr).2 hq
    rcases hw with hw | ⟨m, hw⟩
    · exact htaking hw
    · exact hsending m hw
  cases hw : p.worker with
  | idle => exact .inl hw
  | starting => exact .inr (.inl hw)
  | waiting => exact absurd hw hwaiting
  | done => exact absurd hw hdone
  | holds note =>
    cases note with
    | none => exact absurd ((h.told hw).symm.trans hs) (by simp)
    | some m => exact hgoes (by simp [hw, Worker.Alive]) fun hr => absurd hw ((hon hr).1 m)
  | taking =>
    exact hgoes (by simp [hw, Worker.Alive]) fun hr => ⟨hempty hr (.inl hw), .inl hw⟩
  | sending m =>
    exact hgoes (by simp [hw, Worker.Alive]) fun hr =>
      ⟨hempty hr (.inr ⟨m, hw⟩), .inr ⟨m, hw⟩⟩

theorem ends_of_taking (hr : p.running = false) (hw : p.worker = .taking) (hq : p.queue ≠ []) :
    ∃ q, run producerStep p (List.replicate 2 .work) = some q ∧ q.stopper = p.stopper ∧
      q.worker = .done := by
  obtain ⟨m, queue, hq⟩ := List.exists_cons_of_ne_nil hq
  refine ⟨{ p with queue, worker := .done }, ?_, rfl, rfl⟩
  simp [List.replicate, producerStep, KafkaProducer.work, hw, hq, hr]

theorem done_of_ends (h : p.Ends) : ∃ k q,
    run producerStep p.wakeUpAll (List.replicate k .work) = some q ∧ q.stopper = .joining ∧
      q.worker = .done := by
  rcases h with hw | hw | ⟨hr, ⟨m, hw⟩ | ⟨hq, hw | ⟨m, hw⟩⟩⟩
  · refine ⟨1, { p with stopper := .joining, worker := .done }, ?_, rfl, rfl⟩
    simp [KafkaProducer.wakeUpAll, hw, producerStep, KafkaProducer.work]
  · rw [wakeUpAll_of_ne (by simp [hw])]
    exact ⟨0, _, rfl, rfl, hw⟩
  · rw [wakeUpAll_of_ne (by simp [hw])]
    refine ⟨1, { p with stopper := .joining, worker := .done }, ?_, rfl, rfl⟩
    simp [producerStep, KafkaProducer.work, hw, hr]
  · rw [wakeUpAll_of_ne (by simp [hw])]
    exact ⟨2, ends_of_taking (p := { p with stopper := .joining }) hr hw hq⟩
  · rw [wakeUpAll_of_ne (by simp [hw])]
    obtain ⟨q, hrun, hs, hdone⟩ := ends_of_taking
      (p := { p with stopper := .joining, worker := .taking, produced := p.produced ++ [m] })
      hr rfl hq
    refine ⟨1 + 2, q, ?_, hs, hdone⟩
    rw [List.replicate_add, run_append]
    simpa [producerStep, KafkaProducer.work, hw] using hrun

theorem returns_iff (h : Phased p) (hs : p.stopper = .waking) : Returns p ↔ p.Ends := by
  have hwake : producerStep p .wakeUpAll = some p.wakeUpAll := if_pos hs
  constructor
  · rintro ⟨k, p', hrun⟩
    by_contra hends
    obtain ⟨q, hq, hjoin⟩ := run_snoc_inv hrun
    rw [run_cons, hwake, Option.bind_some] at hq
    simp only [producerStep, Option.ite_none_right_eq_some] at hjoin
    have hendless := work_run (fun _ _ => endless_work) (endless_wakeUpAll h hs hends) hq
    exact hendless.not_done hjoin.1.2
  · intro hends
    obtain ⟨k, q, hq, hjoining, hdone⟩ := done_of_ends hends
    refine ⟨k, { q with stopper := .away, worker := .idle }, ?_⟩
    rw [run_snoc, run_cons, hwake, Option.bind_some, hq]
    exact if_pos ⟨hjoining, hdone⟩

theorem ends_stop_iff (hr : p.running) (halive : p.worker.Alive) : p.stop.Ends ↔ p.Noticed := by
  have hp : p.stop = { p with running := false, stopper := .waking } := if_pos hr
  rw [hp]
  cases hw : p.worker with
  | idle | done =>
    rw [hw] at halive
    exact halive.elim
  | holds note =>
    cases note with
    | none =>
      rw [hw] at halive
      exact halive.elim
    | some m => simp [KafkaProducer.Ends, KafkaProducer.Noticed, hw]
  | starting | taking | waiting | sending m =>
    simp [KafkaProducer.Ends, KafkaProducer.Noticed, hw]

theorem ends_work (h : p.Ends ∧ p.running = false) (hp : p.work = some p') :
    p'.Ends ∧ p'.running = false := by
  obtain ⟨hends, hr⟩ := h
  rcases hends with hw | hw | ⟨-, ⟨m, hw⟩ | ⟨hq, hw | ⟨m, hw⟩⟩⟩
  · simp [KafkaProducer.work, hw] at hp
  · simp [KafkaProducer.work, hw] at hp
  · simp only [KafkaProducer.work, hw, hr, Bool.false_eq_true, if_false, Option.some.injEq] at hp
    subst hp
    exact ⟨.inr (.inl rfl), rfl⟩
  · obtain ⟨m, queue, hq⟩ := List.exists_cons_of_ne_nil hq
    simp only [KafkaProducer.work, hw, hq, Option.some.injEq] at hp
    subst hp
    exact ⟨.inr (.inr ⟨hr, .inl ⟨m, rfl⟩⟩), hr⟩
  · simp only [KafkaProducer.work, hw, Option.some.injEq] at hp
    subst hp
    exact ⟨.inr (.inr ⟨hr, .inr ⟨hq, .inl rfl⟩⟩), hr⟩

theorem work_run_stopper {k : Nat} (hp : run producerStep p (List.replicate k .work) = some p') :
    p'.stopper = p.stopper :=
  work_run (I := (·.stopper = p.stopper)) (fun _ _ hs hw => (work_stopper hw).trans hs) rfl hp

/-- Whatever the thread does between the two statements of `Stop`, `Stop` returns, exactly when at
the call the thread has set `Running_` and is not on its way to an empty queue. Else it rests with
where `wakeUpAll` finds the thread: `wakeUpAll` wakes only who waits by then. -/
theorem stop_returns_iff {es : List ProducerEvent} (h : run producerStep {} es = some p)
    (hr : p.running) (hs : p.stopper = .away) (hthread : p.worker ≠ .idle) :
    ((∀ j q, run producerStep p (.stop :: List.replicate j .work) = some q → Returns q) ↔
      p.Noticed) ∧
    ∀ fs q, run producerStep p (.stop :: fs) = some q → q.stopper = .waking →
      (Returns q ↔ q.Ends) := by
  have hphased := phased_run h
  have hstop : producerStep p .stop = some p.stop := if_pos hs
  have hp : p.stop = { p with running := false, stopper := .waking } := if_pos hr
  have hstopper : p.stop.stopper = .waking := by rw [hp]
  rw [← ends_stop_iff hr (hphased.alive hs hthread)]
  have hafter {fs : List ProducerEvent} {q : KafkaProducer}
      (hq : run producerStep p (.stop :: fs) = some q) : Phased q := by
    have hrun : run producerStep {} (es ++ .stop :: fs) = some q := by
      rw [run_append, h]
      exact hq
    exact phased_run hrun
  refine ⟨⟨fun hall => ?_, fun hends j q hq => ?_⟩, fun fs q hq hwaking => ?_⟩
  · have hreturns := hall 0 p.stop (by simp [hstop])
    exact (returns_iff (phased_step hphased hstop) hstopper).mp hreturns
  · have hphased' := hafter hq
    rw [run_cons, hstop, Option.bind_some] at hq
    have hrun : p.stop.running = false := by rw [hp]
    have hkept := work_run (fun _ _ => ends_work) ⟨hends, hrun⟩ hq
    exact (returns_iff hphased' ((work_run_stopper hq).trans hstopper)).mpr hkept.1
  · exact returns_iff (hafter hq) hwaking

theorem stop_returns_iff_sent :
    ¬ Returns { running := false, stopper := .waking, worker := .taking } ∧
    Returns { running := false, stopper := .waking, worker := .waiting } := by
  have hrun : run producerStep {} [.start, .work] = some { running := true, worker := .taking } :=
    rfl
  obtain ⟨-, hiff⟩ := stop_returns_iff hrun rfl rfl (by simp)
  have htaking := hiff [] { running := false, stopper := .waking, worker := .taking } rfl rfl
  have hwaiting :=
    hiff [.work] { running := false, stopper := .waking, worker := .waiting } rfl rfl
  exact ⟨fun h => by simpa [KafkaProducer.Ends] using htaking.mp h, hwaiting.mpr (.inl rfl)⟩

end Owls.Kafka
