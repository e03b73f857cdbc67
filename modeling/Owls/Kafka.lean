import Mathlib.Algebra.Group.Nat.Defs
import Mathlib.Data.List.Nodup
import Mathlib.Tactic.Common
import Std.Data.ExtTreeMap
import Owls.Base.Machine

/-!
# The watchers of `KafkaManager`

The consumer calls the watchers of a topic for each message. Its mutex is held for each whole
call.
-/

open Machine

namespace Owls.Kafka

structure KafkaMessage where
  topic : String
  key : String
  payload : String
deriving DecidableEq

/-! ## Watchers -/

variable {F : Type}

/-- The identifier that goes with a watcher is an `int`. -/
def toInt (id : UInt64) : Int32 := id.toUInt32.toInt32

structure KafkaConsumer (F : Type) where
  notifiers : Std.ExtTreeMap String (List (F × Int32)) := ∅
  functionId : UInt64 := 1
  topics : Std.ExtTreeMap String Unit := ∅
  /-- The topics that the dispatcher runs with, once it does. -/
  subscribed : Option (Std.ExtTreeMap String Unit) := none
  /-- The calls of watchers, with the key and the payload. -/
  called : List (F × String × String) := []

def KafkaConsumer.watchers (c : KafkaConsumer F) (topic : String) : List (F × Int32) :=
  (c.notifiers[topic]?).getD []

/-- The result is the identifier of the watcher. -/
def registerTopicWatcher (c : KafkaConsumer F) (topic : String) (f : F) :
    UInt64 × KafkaConsumer F :=
  (c.functionId,
    { c with
      notifiers := c.notifiers.insert topic (c.watchers topic ++ [(f, toInt c.functionId)])
      topics := c.topics.insert topic ()
      functionId := c.functionId + 1 })

def unregisterTopicWatcher (c : KafkaConsumer F) (topic : String) (id : UInt64) :
    KafkaConsumer F :=
  match c.notifiers[topic]? with
  | none => c
  | some l =>
    { c with notifiers := c.notifiers.insert topic (l.eraseP fun w => w.2 == toInt id) }

/-- The callback of the dispatcher. What a watcher throws ends there. -/
def dispatch (c : KafkaConsumer F) (m : KafkaMessage) : KafkaConsumer F :=
  { c with called := c.called ++ (c.watchers m.topic).map fun w => (w.1, m.key, m.payload) }

inductive ConsumerEvent (F : Type) where
  | register (topic : String) (f : F)
  | unregister (topic : String) (id : UInt64)
  /-- `run` subscribes to the topics. -/
  | run
  | consume (m : KafkaMessage)

def consumerStep (c : KafkaConsumer F) : ConsumerEvent F → Option (KafkaConsumer F)
  | .register topic f => some (registerTopicWatcher c topic f).2
  | .unregister topic id => some (unregisterTopicWatcher c topic id)
  | .run => if c.subscribed.isNone then some { c with subscribed := some c.topics } else none
  | .consume m =>
    if (c.subscribed.bind fun topics => topics[m.topic]?).isSome then some (dispatch c m) else none

/-! ## What the watchers are for -/

structure Watcher (F : Type) where
  topic : String
  callback : F
  id : UInt64

/-- The watchers in the order of their registration, and the topics that there ever was one for. -/
structure Registry (F : Type) where
  live : List (Watcher F) := []
  next : UInt64 := 1
  named : List String := []
  subscribed : Option (List String) := none
  called : List (F × String × String) := []

def Registry.step (a : Registry F) : ConsumerEvent F → Option (Registry F)
  | .register topic f =>
    some { a with live := a.live ++ [⟨topic, f, a.next⟩], next := a.next + 1,
                  named := topic :: a.named }
  | .unregister topic id =>
    some { a with live := a.live.filter fun w => !(w.topic == topic && w.id == id) }
  | .run => if a.subscribed.isNone then some { a with subscribed := some a.named } else none
  | .consume m =>
    if ∃ topics, a.subscribed = some topics ∧ m.topic ∈ topics then
      some { a with
        called := a.called ++ (a.live.filter (·.topic == m.topic)).map fun w =>
          (w.callback, m.key, m.payload) }
    else none

/-- An identifier is given back as it was given out. -/
def Given (c : KafkaConsumer F) : ConsumerEvent F → Prop
  | .unregister _ id => id < c.functionId
  | .register _ _ | .run | .consume _ => True

def ConsumerEvent.registers : ConsumerEvent F → Bool
  | .register _ _ => true
  | .unregister _ _ | .run | .consume _ => false

/-! ## Identifiers -/

variable {c c' : KafkaConsumer F} {a a' : Registry F} {e : ConsumerEvent F} {n : Nat}

theorem toInt_inj {i j : UInt64} (hi : i.toNat < 2 ^ 32) (hj : j.toNat < 2 ^ 32) :
    toInt i = toInt j ↔ i = j := by
  refine ⟨fun h => ?_, fun h => h ▸ rfl⟩
  have h32 : i.toUInt32 = j.toUInt32 := by
    have hback := congrArg Int32.toUInt32 h
    simpa only [toInt, UInt32.toUInt32_toInt32] using hback
  have hmod : i.toNat % 2 ^ 32 = j.toNat % 2 ^ 32 := by
    simpa only [UInt64.toNat_toUInt32] using congrArg UInt32.toNat h32
  rw [Nat.mod_eq_of_lt hi, Nat.mod_eq_of_lt hj] at hmod
  exact UInt64.toNat_inj.mp hmod

theorem eraseP_eq_filter {α : Type} {p : α → Bool} {l : List α}
    (h : l.Pairwise fun x y => ¬ (p x ∧ p y)) : l.eraseP p = l.filter fun x => !p x := by
  induction l with
  | nil => rfl
  | cons x l ih =>
    obtain ⟨hx, hl⟩ := List.pairwise_cons.mp h
    cases hpx : p x with
    | false =>
      rw [List.eraseP_cons_of_neg (by simp [hpx]), ih hl, List.filter_cons_of_pos (by simp [hpx])]
    | true =>
      have hrest : l.filter (fun x => !p x) = l := by
        rw [List.filter_eq_self]
        intro y hy
        have hpy : ¬ p y = true := fun hpy => hx y hy ⟨hpx, hpy⟩
        simpa using hpy
      rw [List.eraseP_cons_of_pos hpx, List.filter_cons_of_neg (by simp [hpx]), hrest]

/-! ## The table of the code shows the registry -/

/-- `n` is how many watchers there have been. -/
structure Refines (c : KafkaConsumer F) (a : Registry F) (n : Nat) : Prop where
  next : a.next = c.functionId
  count : c.functionId.toNat = 1 + n
  given : ∀ w ∈ a.live, w.id < c.functionId
  distinct : a.live.Pairwise fun v w => v.id ≠ w.id
  watchers : ∀ topic, c.watchers topic =
    (a.live.filter (·.topic == topic)).map fun w => (w.callback, toInt w.id)
  topics : ∀ topic, (c.topics[topic]?).isSome ↔ topic ∈ a.named
  subscribed : ∀ topic, ((c.subscribed.bind fun topics => topics[topic]?).isSome) ↔
    ∃ topics, a.subscribed = some topics ∧ topic ∈ topics
  running : c.subscribed.isNone ↔ a.subscribed.isNone
  called : c.called = a.called

theorem refines_start : Refines ({} : KafkaConsumer F) {} 0 where
  next := rfl
  count := rfl
  given := by simp
  distinct := .nil
  watchers _ := by simp [KafkaConsumer.watchers]
  topics _ := by simp
  subscribed _ := by simp
  running := by simp
  called := rfl

theorem watchers_insert (c : KafkaConsumer F) (topic t : String) (l : List (F × Int32)) :
    ((c.notifiers.insert topic l)[t]?).getD [] = if topic = t then l else c.watchers t := by
  rw [Std.ExtTreeMap.getElem?_insert]
  by_cases h : topic = t
  · simp [h]
  · simp [h, KafkaConsumer.watchers]

theorem refines_register (h : Refines c a n) (hn : n + 1 < 2 ^ 32) (topic : String) (f : F) :
    Refines (registerTopicWatcher c topic f).2
      { a with live := a.live ++ [⟨topic, f, a.next⟩], next := a.next + 1,
               named := topic :: a.named } (n + 1) := by
  have hcount := h.count
  have hnext : (c.functionId + 1).toNat = 1 + (n + 1) := by
    rw [UInt64.toNat_add, hcount]
    exact Nat.mod_eq_of_lt (by simp; omega)
  have hgrow : c.functionId < c.functionId + 1 := by
    rw [UInt64.lt_iff_toNat_lt, hnext, hcount]
    omega
  refine ⟨?_, hnext, ?_, ?_, ?_, ?_, h.subscribed, h.running, h.called⟩
  · rw [h.next]
    rfl
  · intro w hw
    rcases List.mem_append.mp hw with hw | hw
    · exact UInt64.lt_trans (h.given w hw) hgrow
    · rw [List.mem_singleton.mp hw, h.next]
      exact hgrow
  · refine List.pairwise_append.mpr ⟨h.distinct, List.pairwise_singleton .., ?_⟩
    intro v hv w hw heq
    rw [List.mem_singleton.mp hw, h.next] at heq
    exact UInt64.ne_of_lt (h.given v hv) heq
  · intro t
    have hlast : (registerTopicWatcher c topic f).2.watchers t =
        if topic = t then c.watchers topic ++ [(f, toInt c.functionId)] else c.watchers t :=
      watchers_insert c topic t _
    rw [hlast, List.filter_append, List.map_append]
    by_cases heq : topic = t
    · subst heq
      rw [if_pos rfl, h.watchers, h.next]
      simp
    · rw [if_neg heq, h.watchers]
      simp [heq]
  · intro t
    have hinsert : (registerTopicWatcher c topic f).2.topics = c.topics.insert topic () := rfl
    rw [hinsert, Std.ExtTreeMap.getElem?_insert, List.mem_cons, ← h.topics]
    by_cases heq : topic = t
    · simp [heq]
    · simp [heq, Ne.symm heq]

theorem watchers_unregister (c : KafkaConsumer F) (topic t : String) (id : UInt64) :
    (unregisterTopicWatcher c topic id).watchers t =
      if topic = t then (c.watchers topic).eraseP fun w => w.2 == toInt id else c.watchers t := by
  cases hl : c.notifiers[topic]? with
  | none =>
    have hsame : unregisterTopicWatcher c topic id = c := by simp only [unregisterTopicWatcher, hl]
    have hnil : c.watchers topic = [] := by simp only [KafkaConsumer.watchers, hl, Option.getD_none]
    rw [hsame, hnil, List.eraseP_nil]
    split
    · rename_i heq
      rw [← heq, hnil]
    · rfl
  | some l =>
    have hinsert : (unregisterTopicWatcher c topic id).notifiers =
        c.notifiers.insert topic (l.eraseP fun w => w.2 == toInt id) := by
      simp only [unregisterTopicWatcher, hl]
    have hwatchers : c.watchers topic = l := by
      simp only [KafkaConsumer.watchers, hl, Option.getD_some]
    rw [KafkaConsumer.watchers, hinsert, watchers_insert, hwatchers]

@[simp] theorem unregister_functionId (topic : String) (id : UInt64) :
    (unregisterTopicWatcher c topic id).functionId = c.functionId := by
  unfold unregisterTopicWatcher
  split <;> rfl

@[simp] theorem unregister_topics (topic : String) (id : UInt64) :
    (unregisterTopicWatcher c topic id).topics = c.topics := by
  unfold unregisterTopicWatcher
  split <;> rfl

@[simp] theorem unregister_subscribed (topic : String) (id : UInt64) :
    (unregisterTopicWatcher c topic id).subscribed = c.subscribed := by
  unfold unregisterTopicWatcher
  split <;> rfl

@[simp] theorem unregister_called (topic : String) (id : UInt64) :
    (unregisterTopicWatcher c topic id).called = c.called := by
  unfold unregisterTopicWatcher
  split <;> rfl

theorem Refines.small (h : Refines c a n) (hn : n < 2 ^ 32) {id : UInt64}
    (hid : id < c.functionId) : id.toNat < 2 ^ 32 := by
  have hcount := h.count
  have hlt := UInt64.lt_iff_toNat_lt.mp hid
  omega

theorem refines_unregister (h : Refines c a n) (hn : n < 2 ^ 32) (topic : String) {id : UInt64}
    (hid : id < c.functionId) :
    Refines (unregisterTopicWatcher c topic id)
      { a with live := a.live.filter fun w => !(w.topic == topic && w.id == id) } n := by
  have hinj : ∀ w ∈ a.live, (toInt w.id == toInt id) = (w.id == id) := by
    intro w hw
    rw [Bool.eq_iff_iff, beq_iff_eq, beq_iff_eq]
    exact toInt_inj (h.small hn (h.given w hw)) (h.small hn hid)
  refine ⟨?_, ?_, ?_, h.distinct.filter _, fun t => ?_, ?_, ?_, ?_, ?_⟩
  · rw [unregister_functionId, h.next]
  · rw [unregister_functionId, h.count]
  · intro w hw
    rw [unregister_functionId]
    exact h.given w (List.mem_of_mem_filter hw)
  · rw [watchers_unregister]
    by_cases heq : topic = t
    · subst heq
      -- At most one watcher has the identifier, so that the first is all of them.
      have hone : (a.live.filter (·.topic == topic)).Pairwise fun v w =>
          ¬ ((toInt v.id == toInt id) ∧ (toInt w.id == toInt id)) := by
        refine (h.distinct.filter _).imp_of_mem fun {v w} hv hw hne hboth => ?_
        rw [hinj v (List.mem_of_mem_filter hv), hinj w (List.mem_of_mem_filter hw)] at hboth
        exact hne ((beq_iff_eq.mp hboth.1).trans (beq_iff_eq.mp hboth.2).symm)
      rw [if_pos rfl, h.watchers, List.eraseP_map]
      refine congrArg _ ((eraseP_eq_filter hone).trans ?_)
      rw [List.filter_filter, List.filter_filter]
      refine List.filter_congr fun w hw => ?_
      rw [hinj w hw]
      cases w.topic == topic <;> simp
    · rw [if_neg heq, h.watchers]
      refine congrArg _ ?_
      rw [List.filter_filter]
      refine List.filter_congr fun w _ => ?_
      by_cases ht : w.topic = t
      · simp [ht, Ne.symm heq]
      · simp [ht]
  · simpa using h.topics
  · simpa using h.subscribed
  · simpa using h.running
  · simpa using h.called

theorem dispatch_called (h : Refines c a n) (m : KafkaMessage) :
    (dispatch c m).called = a.called ++ (a.live.filter (·.topic == m.topic)).map fun w =>
      (w.callback, m.key, m.payload) := by
  simp [dispatch, h.called, h.watchers]

theorem refines_step (h : Refines c a n) (hn : n + (if e.registers then 1 else 0) < 2 ^ 32)
    (hg : Given c e) (he : consumerStep c e = some c') :
    ∃ a', Registry.step a e = some a' ∧ Refines c' a' (n + if e.registers then 1 else 0) := by
  cases e with
  | register topic f =>
    cases he
    exact ⟨_, rfl, refines_register h hn topic f⟩
  | unregister topic id =>
    cases he
    exact ⟨_, rfl, refines_unregister h hn topic hg⟩
  | run =>
    simp only [consumerStep, Option.ite_none_right_eq_some] at he
    obtain ⟨hrun, heq⟩ := he
    cases heq
    refine ⟨_, if_pos (h.running.mp hrun), ?_⟩
    exact ⟨h.next, h.count, h.given, h.distinct, h.watchers, h.topics,
      fun topic => by simpa using h.topics topic, by simp, h.called⟩
  | consume m =>
    simp only [consumerStep, Option.ite_none_right_eq_some] at he
    obtain ⟨hsub, heq⟩ := he
    cases heq
    refine ⟨_, if_pos ((h.subscribed m.topic).mp hsub), ?_⟩
    exact ⟨h.next, h.count, h.given, h.distinct, h.watchers, h.topics, h.subscribed, h.running,
      dispatch_called h m⟩

theorem refines_run {es : List (ConsumerEvent F)} (h : run consumerStep {} es = some c)
    (hg : Steps consumerStep Given {} es) (hn : es.countP (·.registers) < 2 ^ 32) :
    ∃ a, run Registry.step {} es = some a ∧ Refines c a (es.countP (·.registers)) := by
  induction es using List.reverseRecOn generalizing c with
  | nil =>
    cases h
    exact ⟨{}, rfl, refines_start⟩
  | append_singleton es e ih =>
    obtain ⟨c₁, h₁, he⟩ := run_snoc_inv h
    rw [List.countP_append, List.countP_singleton] at hn ⊢
    obtain ⟨a₁, ha₁, href⟩ := ih h₁ (hg.of_prefix (List.prefix_append es [e])) (by omega)
    obtain ⟨a, ha, href'⟩ := refines_step href hn (hg.last h₁ he) he
    exact ⟨a, by rw [run_snoc, ha₁]; exact ha, href'⟩

/-- The watchers that are called, in their order, are those that the registry has at the time:
to truncate the identifiers, and to forget none of the topics, changes nothing. -/
theorem watchers_exact {es : List (ConsumerEvent F)} (h : run consumerStep {} es = some c)
    (hg : Steps consumerStep Given {} es) (hn : es.countP (·.registers) < 2 ^ 32) :
    ∃ a, run Registry.step {} es = some a ∧ c.called = a.called ∧
      ∀ topic, (c.watchers topic).map (·.1) =
        (a.live.filter (·.topic == topic)).map (·.callback) := by
  obtain ⟨a, ha, href⟩ := refines_run h hg hn
  refine ⟨a, ha, href.called, fun topic => ?_⟩
  rw [href.watchers, List.map_map]
  rfl

/-- Two watchers of one topic, of which the first goes before the message comes. -/
abbrev firstGone : List (ConsumerEvent Nat) :=
  [.register "connection" 1, .register "connection" 2, .unregister "connection" 1, .run,
   .consume ⟨"connection", "24f5a207a130", "\x7b\x7d"⟩]

theorem watchers_exact_first_gone : ∃ c, run consumerStep {} firstGone = some c ∧
    ∃ a, run Registry.step {} firstGone = some a ∧ c.called = a.called ∧
      ∀ topic, (c.watchers topic).map (·.1) =
        (a.live.filter (·.topic == topic)).map (·.callback) := by
  have hrun : (run consumerStep {} firstGone).isSome := by decide +kernel
  obtain ⟨c, hc⟩ := Option.isSome_iff_exists.mp hrun
  refine ⟨c, hc, watchers_exact hc ?_ (by decide)⟩
  simp [firstGone, steps_cons, steps_nil, Given, consumerStep, registerTopicWatcher]

end Owls.Kafka
