import Owls.Base.Locks
import Owls.Base.Machine

/-!
# The mutexes of a runner

A runner has a mutex of its own, one for `Clients_fd_`, and one in each client. `Stop` joins the
threads of the reactors while it holds the runner's, and the callbacks of these threads lock too.
-/

open Machine

namespace Owls.WaitCycles

open Locks

inductive Thread where
  /-- A call of `Stop`. -/
  | stop (k : Nat)
  | timer
  | reactor (j : Nat)
  /-- A thread that `ProcessCommand` starts. -/
  | command (k : Nat)
  /-- A thread of the scheduler. -/
  | scheduled (k : Nat)
deriving DecidableEq

inductive Mutex where
  | runner
  | client (c : Nat)
  | socketFd
deriving DecidableEq

inductive Flag where
  | running
deriving DecidableEq

abbrev Prog := Locks.Prog Thread Mutex Flag

abbrev System := Threads Thread Mutex Flag

/-! ## What locks what -/

/-- `AddClientFd` and `RemoveClientFd`. -/
def clientFd (next : Prog) : Prog := .lock .socketFd (.unlock .socketFd next)

/-- `OWLSclient::Disconnect`, with the mutex of the client. `known`: the client has a descriptor. -/
def disconnect (known : Bool) (next : Prog) : Prog := if known then clientFd next else next

/-- What a thread does to `Clients_fd_` while it holds the mutex of a client. -/
inductive Work where
  | add
  | disconnect (known : Bool)
  /-- `OWLSClientEvents::Disconnect`. -/
  | disconnectEvent (known : Bool)

def Work.prog : Work → Prog → Prog
  | .add, next => clientFd next
  | .disconnect known, next => WaitCycles.disconnect known next
  | .disconnectEvent known, next => .test .running (WaitCycles.disconnect known next) next

def withClient (c : Nat) (work : List Work) (next : Prog) : Prog :=
  .lock (.client c) (work.foldr Work.prog (.unlock (.client c) next))

/-- `OWLSClientEvents::Reconnect`. -/
def reconnect (c : Nat) (next : Prog) : Prog := .test .running (withClient c [] next) next

/-- What a callback of the reactor meets. `found` is the client of the socket, and `throws` says
whether an exception ends it in `OWLSclient::Disconnect`. -/
structure Lookup where
  found : Option Nat
  known : Bool := false
  throws : Bool := false

/-- The common end of the callbacks that close a client. -/
def closeClient (l : Lookup) (c : Nat) (next : Prog) : Prog :=
  withClient c [.disconnect l.known] <|
    if l.throws then next else .test .running (reconnect c next) next

def onSocketError (l : Lookup) : Prog :=
  .lock .runner <| clientFd <|
    match l.found with
    | none => .unlock .runner .done
    | some c => closeClient l c (.unlock .runner .done)

def onSocketShutdown (l : Lookup) : Prog :=
  clientFd <|
    match l.found with
    | none => .done
    | some c => closeClient l c .done

def onSocketReadable (found : Option Nat) (work : List Work) : Prog :=
  clientFd <|
    match found with
    | none => .done
    | some c => withClient c work .done

/-- The loop of `onUpdateTimer` over the clients. -/
def updateClients : List Nat → Prog
  | [] => .unlock .runner .done
  | c :: cs =>
    .test .running
      (.tryLock (.client c) (.unlock (.client c) (updateClients cs)) (updateClients cs))
      (.unlock .runner .done)

/-- `due`: the number of updates is a multiple of 15. -/
def onUpdateTimer (due : Bool) (clients : List Nat) : Prog :=
  .test .running (if due then .lock .runner (updateClients clients) else .done) .done

def haltReactors : List Nat → Prog → Prog
  | [], next => next
  | j :: js, next => .halt (.reactor j) (haltReactors js next)

def joinReactors : List Nat → Prog → Prog
  | [], next => next
  | j :: js, next => .join (.reactor j) (joinReactors js next)

/-- `Stop`, over the reactors of the pool. -/
def stop (reactors : List Nat) : Prog :=
  .test .running
    (.clear .running <| .halt .timer <| .join .timer <| .lock .runner <|
      haltReactors reactors <| joinReactors reactors <| .unlock .runner .done)
    .done

/-! ## The machine -/

inductive Event where
  | stop (k : Nat)
  | onUpdateTimer (due : Bool) (clients : List Nat)
  | onSocketError (j : Nat) (l : Lookup)
  | onSocketShutdown (j : Nat) (l : Lookup)
  | onSocketReadable (j : Nat) (found : Option Nat) (work : List Work)
  | command (k c : Nat) (work : List Work)
  | scheduled (k c : Nat) (work : List Work)
  /-- A thread does its next step. -/
  | advance (t : Thread)
  /-- A thread that is asked to end does so. -/
  | leave (t : Thread)

/-- The thread and the program that an event starts. -/
def Event.call? (reactors : List Nat) : Event → Option (Thread × Prog)
  | .stop k => some (.stop k, WaitCycles.stop reactors)
  | .onUpdateTimer due clients => some (.timer, WaitCycles.onUpdateTimer due clients)
  | .onSocketError j l => some (.reactor j, WaitCycles.onSocketError l)
  | .onSocketShutdown j l => some (.reactor j, WaitCycles.onSocketShutdown l)
  | .onSocketReadable j found work => some (.reactor j, WaitCycles.onSocketReadable found work)
  | .command k c work => some (.command k, withClient c work .done)
  | .scheduled k c work => some (.scheduled k, .test .running (withClient c work .done) .done)
  | .advance _ | .leave _ => none

def step (reactors : List Nat) (s : System) : Event → Option System
  | .advance t => s.advance t
  | .leave t => s.leave t
  | e => (e.call? reactors).bind fun p => s.call p.1 p.2

/-- A runner whose `run` has come to its end: all threads are idle. -/
def running : System where
  prog _ := .done
  owner _ := none
  flag _ := true
  halted _ := false
  gone _ := false

/-! ## The order of the mutexes -/

def rank : Resource Thread Mutex → Nat
  | .life .timer => 0
  | .lock .runner => 1
  | .life _ => 2
  | .lock (.client _) => 3
  | .lock .socketFd => 4

/-- All that the thread holds comes before the mutex. -/
def Below (held : Set Mutex) (m : Mutex) : Prop := ∀ m' ∈ held, rank (.lock m') < rank (.lock m)

/-- A point of a program of thread `t`: mutexes are taken in order, and only `Stop` joins, with
the mutex of the runner alone when it joins a reactor. -/
def Right (t : Thread) (held : Set Mutex) : Prog → Prop
  | .done => held = ∅
  | .lock m _ => Below held m
  | .join u _ =>
    (∃ k, t = .stop k) ∧ (u = .timer ∧ held = ∅ ∨ ∃ j, u = .reactor j ∧ held = {.runner})
  | _ => True

variable {t : Thread} {held : Set Mutex} {next : Prog}

theorem Below.notMem {m : Mutex} (h : Below held m) : m ∉ held :=
  fun hm => Nat.lt_irrefl _ (h m hm)

theorem below_empty (m : Mutex) : Below ∅ m := fun _ h => absurd h (Set.notMem_empty _)

theorem below_insert {m m' : Mutex} (h : Below held m)
    (hm : rank (.lock m') < rank (.lock m)) : Below (insert m' held) m := by
  rintro m'' (rfl | hmem)
  · exact hm
  · exact h m'' hmem

theorem insert_sdiff {m : Mutex} (h : Below held m) : insert m held \ {m} = held :=
  Set.insert_sdiff_self_of_notMem h.notMem

theorem all_clientFd (h : Below held .socketFd) (hnext : next.All (Right t) held) :
    (clientFd next).All (Right t) held := by
  refine ⟨h, trivial, ?_⟩
  rw [insert_sdiff h]
  exact hnext

theorem all_disconnect (known : Bool) (h : Below held .socketFd)
    (hnext : next.All (Right t) held) : (disconnect known next).All (Right t) held := by
  unfold disconnect
  split
  · exact all_clientFd h hnext
  · exact hnext

theorem all_work (w : Work) (h : Below held .socketFd) (hnext : next.All (Right t) held) :
    (w.prog next).All (Right t) held := by
  cases w with
  | add => exact all_clientFd h hnext
  | disconnect known => exact all_disconnect known h hnext
  | disconnectEvent known => exact ⟨trivial, all_disconnect known h hnext, hnext⟩

theorem all_withClient (c : Nat) (work : List Work) (h : Below held (.client c))
    (hnext : next.All (Right t) held) : (withClient c work next).All (Right t) held := by
  have hfd : Below (insert (.client c) held) .socketFd :=
    below_insert (fun m hm => (h m hm).trans (Nat.lt_succ_self 3)) (Nat.lt_succ_self 3)
  refine ⟨h, ?_⟩
  induction work with
  | nil =>
    refine ⟨trivial, ?_⟩
    rw [insert_sdiff h]
    exact hnext
  | cons w work ih => exact all_work w hfd ih

theorem all_closeClient (l : Lookup) (c : Nat) (h : Below held (.client c))
    (hnext : next.All (Right t) held) : (closeClient l c next).All (Right t) held := by
  refine all_withClient c _ h ?_
  split
  · exact hnext
  · exact ⟨trivial, ⟨trivial, all_withClient c [] h hnext, hnext⟩, hnext⟩

theorem all_underRunner (h : next.All (Right t) {.runner}) :
    (Locks.Prog.lock .runner next).All (Right t) ∅ := by
  refine ⟨below_empty .runner, ?_⟩
  rw [insert_empty_eq]
  exact h

theorem all_release : (Locks.Prog.unlock .runner .done : Prog).All (Right t) {.runner} :=
  ⟨trivial, Set.sdiff_self⟩

theorem below_runner {m : Mutex} (hm : rank (.lock .runner) < rank (.lock m)) :
    Below {.runner} m := by
  rintro _ rfl
  exact hm

theorem all_onSocketError (l : Lookup) : (onSocketError l).All (Right t) ∅ := by
  refine all_underRunner (all_clientFd (below_runner (by decide)) ?_)
  split
  · exact all_release
  · exact all_closeClient l _ (below_runner (by simp [rank])) all_release

theorem all_done : (Locks.Prog.done : Prog).All (Right t) ∅ := rfl

theorem all_onSocketShutdown (l : Lookup) : (onSocketShutdown l).All (Right t) ∅ := by
  refine all_clientFd (below_empty _) ?_
  split
  · exact all_done
  · exact all_closeClient l _ (below_empty _) all_done

theorem all_onSocketReadable (found : Option Nat) (work : List Work) :
    (onSocketReadable found work).All (Right t) ∅ := by
  refine all_clientFd (below_empty _) ?_
  split
  · exact all_done
  · exact all_withClient _ work (below_empty _) all_done

theorem all_updateClients (clients : List Nat) :
    (updateClients clients).All (Right t) {.runner} := by
  induction clients with
  | nil => exact all_release
  | cons c clients ih =>
    have hkept : insert (Mutex.client c) {.runner} \ {.client c} = ({.runner} : Set Mutex) :=
      insert_sdiff (below_runner (by simp [rank]))
    refine ⟨trivial, ⟨trivial, ⟨trivial, ?_⟩, ih⟩, all_release⟩
    rw [hkept]
    exact ih

theorem all_onUpdateTimer (due : Bool) (clients : List Nat) :
    (onUpdateTimer due clients).All (Right t) ∅ := by
  refine ⟨trivial, ?_, all_done⟩
  split
  · exact all_underRunner (all_updateClients clients)
  · exact all_done

theorem all_stop (reactors : List Nat) (k : Nat) :
    (stop reactors).All (Right (.stop k)) ∅ := by
  have hjoin : ∀ js, (joinReactors js (.unlock .runner .done)).All (Right (.stop k)) {.runner} := by
    intro js
    induction js with
    | nil => exact all_release
    | cons j js ih => exact ⟨⟨⟨k, rfl⟩, .inr ⟨j, rfl, rfl⟩⟩, ih⟩
  have hhalt : ∀ js, (haltReactors js (joinReactors reactors (.unlock .runner .done))).All
      (Right (.stop k)) {.runner} := by
    intro js
    induction js with
    | nil => exact hjoin reactors
    | cons j js ih => exact ⟨trivial, ih⟩
  exact ⟨trivial, ⟨trivial, trivial, ⟨⟨k, rfl⟩, .inl ⟨rfl, rfl⟩⟩, all_underRunner (hhalt reactors)⟩,
    all_done⟩

theorem all_call {reactors : List Nat} {e : Event} {p : Prog} (h : e.call? reactors = some (t, p)) :
    p.All (Right t) ∅ := by
  cases e with
  | stop k =>
    cases h
    exact all_stop reactors k
  | onUpdateTimer due clients =>
    cases h
    exact all_onUpdateTimer due clients
  | onSocketError j l =>
    cases h
    exact all_onSocketError l
  | onSocketShutdown j l =>
    cases h
    exact all_onSocketShutdown l
  | onSocketReadable j found work =>
    cases h
    exact all_onSocketReadable found work
  | command k c work =>
    cases h
    exact all_withClient c work (below_empty _) all_done
  | scheduled k c work =>
    cases h
    exact ⟨trivial, all_withClient c work (below_empty _) all_done, all_done⟩
  | advance | leave => cases h

/-! ## Who waits for the mutex of the runner -/

@[simp] theorem free_clientFd : (clientFd next).Free .runner ↔ next.Free .runner := by
  simp [clientFd, Locks.Prog.Free]

@[simp] theorem free_work (w : Work) : (w.prog next).Free .runner ↔ next.Free .runner := by
  cases w with
  | add => exact free_clientFd
  | disconnect known => cases known <;> simp [Work.prog, disconnect]
  | disconnectEvent known => cases known <;> simp [Work.prog, disconnect, Locks.Prog.Free]

@[simp] theorem free_withClient (c : Nat) (work : List Work) :
    (withClient c work next).Free .runner ↔ next.Free .runner := by
  have hwork : (work.foldr Work.prog (.unlock (.client c) next)).Free .runner ↔
      next.Free .runner := by
    induction work with
    | nil => rfl
    | cons w work ih => exact (free_work w).trans ih
  simp [withClient, Locks.Prog.Free, hwork]

@[simp] theorem free_closeClient (l : Lookup) (c : Nat) :
    (closeClient l c next).Free .runner ↔ next.Free .runner := by
  unfold closeClient
  split <;> simp [Locks.Prog.Free, reconnect]

theorem reactor_call {reactors : List Nat} {e : Event} {j : Nat} {p : Prog}
    (h : e.call? reactors = some (.reactor j, p)) :
    p.Free .runner ∨ ∃ l next, e = .onSocketError j l ∧ p = .lock .runner next ∧
      next.Free .runner := by
  cases e with
  | onSocketError j l =>
    cases h
    refine .inr ⟨l, _, rfl, rfl, ?_⟩
    rw [free_clientFd]
    cases l.found <;> simp [Locks.Prog.Free]
  | onSocketShutdown j l =>
    cases h
    refine .inl ?_
    unfold onSocketShutdown
    cases l.found <;> simp [Locks.Prog.Free]
  | onSocketReadable j found work =>
    cases h
    refine .inl ?_
    unfold onSocketReadable
    cases found <;> simp [Locks.Prog.Free]
  | stop | onUpdateTimer | command | scheduled | advance | leave => cases h

/-! ## Invariants -/

structure Sound (s : System) : Prop where
  guarded : s.Guarded Right
  ended : s.Ended
  reactor : ∀ j, (s.prog (.reactor j)).FreeBeyond .runner

variable {reactors : List Nat} {s u : System} {e : Event}

theorem step_cases (h : step reactors s e = some u) :
    (∃ t p, e.call? reactors = some (t, p) ∧ s.call t p = some u) ∨
    (∃ t, e = .advance t ∧ s.advance t = some u) ∨ ∃ t, e = .leave t ∧ s.leave t = some u := by
  cases e with
  | advance t => exact .inr (.inl ⟨t, rfl, h⟩)
  | leave t => exact .inr (.inr ⟨t, rfl, h⟩)
  | stop | onUpdateTimer | onSocketError | onSocketShutdown | onSocketReadable | command
  | scheduled => exact .inl ⟨_, _, rfl, h⟩

theorem prog_become {t t' : Thread} {p : Prog} :
    (s.become t p).prog t' = if t' = t then p else s.prog t' := by
  simp [Threads.become, Function.update_apply]

theorem sound_running : Sound running where
  guarded t := by
    have hnone : running.held t = ∅ := by
      ext m
      simp [Threads.held, running]
    exact hnone
  ended _ _ := rfl
  reactor _ := .inl trivial

theorem sound_step (hs : Sound s) (h : step reactors s e = some u) : Sound u := by
  rcases step_cases h with ⟨t, p, hcall, h⟩ | ⟨t, rfl, h⟩ | ⟨t, rfl, h⟩
  · refine ⟨Threads.guarded_call hs.guarded (fun _ h => h) (all_call hcall) h,
      Threads.ended_call hs.ended h, fun j => ?_⟩
    obtain ⟨rfl, -⟩ := Threads.prog_call h
    rw [prog_become]
    split
    · rename_i ht
      subst ht
      exact (reactor_call hcall).imp_right fun ⟨_, next, _, hp, hfree⟩ => ⟨next, hp, hfree⟩
    · exact hs.reactor j
  · refine ⟨Threads.guarded_advance hs.guarded h, Threads.ended_advance hs.ended h, fun j => ?_⟩
    obtain ⟨hprog, -, -⟩ := Threads.prog_advance h
    by_cases ht : .reactor j = t
    · subst ht
      exact .inl (Threads.free_advance (hs.reactor j) h)
    · rw [hprog, Function.update_of_ne ht]
      exact hs.reactor j
  · refine ⟨Threads.guarded_leave hs.guarded h, Threads.ended_leave hs.ended h, fun j => ?_⟩
    rw [Threads.prog_leave h]
    exact hs.reactor j

/-! ## The cycles of waits -/

/-- Some `Stop` waits for the end of reactor thread `j`. -/
def Joined (s : System) (j : Nat) : Prop := ∃ t next, s.prog t = .join (.reactor j) next

/-- Reactor thread `j` waits for the mutex of the runner. -/
def AtRunner (s : System) (j : Nat) : Prop := ∃ next, s.prog (.reactor j) = .lock .runner next

theorem below_of_lock (hs : Sound s) {t : Thread} {m : Mutex} {next : Prog}
    (h : s.prog t = .lock m next) : Below (s.held t) m := by
  have ht : Right t (s.held t) (s.prog t) := (hs.guarded t).here
  rwa [h] at ht

theorem join_right (hs : Sound s) {t v : Thread} {next : Prog} (h : s.prog t = .join v next) :
    (∃ k, t = .stop k) ∧
      (v = .timer ∧ s.held t = ∅ ∨ ∃ j, v = .reactor j ∧ s.held t = {.runner}) := by
  have ht : Right t (s.held t) (s.prog t) := (hs.guarded t).here
  rwa [h] at ht

theorem reactor_ne_join (hs : Sound s) (j : Nat) (v : Thread) (next : Prog) :
    s.prog (.reactor j) ≠ .join v next := by
  intro hjoin
  obtain ⟨⟨k, hk⟩, -⟩ := join_right hs hjoin
  cases hk

theorem rank_life_lt (hs : Sound s) (hfree : ∀ j, Joined s j → ¬ AtRunner s j) {t u : Thread}
    {next : Prog} {ρ : Resource Thread Mutex} (hjoin : s.prog t = .join u next)
    (hwants : s.Wants u ρ) : rank (.life u) < rank ρ := by
  obtain ⟨-, hjoined⟩ := join_right hs hjoin
  cases ρ with
  | lock m =>
    obtain ⟨rfl, -⟩ | ⟨j, rfl, -⟩ := hjoined
    · cases m <;> simp [rank]
    · cases m with
      | runner => exact absurd hwants (hfree j ⟨t, next, hjoin⟩)
      | client | socketFd => simp [rank]
  | life w =>
    obtain ⟨next', hprog⟩ := hwants
    obtain ⟨⟨k, rfl⟩, -⟩ := join_right hs hprog
    obtain ⟨hne, -⟩ | ⟨j, hne, -⟩ := hjoined <;> cases hne

theorem rank_lock_lt (hs : Sound s) {u : Thread} {m : Mutex} {ρ : Resource Thread Mutex}
    (hheld : m ∈ s.held u) (hwants : s.Wants u ρ) : rank (.lock m) < rank ρ := by
  cases ρ with
  | lock m' =>
    obtain ⟨next, hprog⟩ := hwants
    exact below_of_lock hs hprog m hheld
  | life v =>
    obtain ⟨next, hprog⟩ := hwants
    obtain ⟨-, ⟨rfl, hempty⟩ | ⟨j, rfl, honly⟩⟩ := join_right hs hprog
    · rw [hempty] at hheld
      exact absurd hheld (Set.notMem_empty m)
    · rw [honly] at hheld
      obtain rfl : m = .runner := hheld
      exact Nat.lt_succ_self 1

theorem not_deadlock (hs : Sound s) (hfree : ∀ j, Joined s j → ¬ AtRunner s j) :
    ¬ s.Deadlock := by
  refine Threads.not_deadlock_of_rank rank fun t u ρ ρ' hwants hholds hwants' => ?_
  cases ρ with
  | lock m => exact rank_lock_lt hs hholds hwants'
  | life v =>
    obtain ⟨next, hjoin⟩ := hwants
    obtain ⟨rfl, -⟩ := hholds
    exact rank_life_lt hs hfree hjoin hwants'

theorem deadlock_of_joined {j : Nat} (hs : Sound s) (hjoin : Joined s j) (hlock : AtRunner s j) :
    s.Deadlock := by
  obtain ⟨t, next, hjoin⟩ := hjoin
  obtain ⟨next', hlock⟩ := hlock
  have hheld : s.held t = {.runner} := by
    obtain ⟨-, ⟨hne, -⟩ | ⟨-, -, hheld⟩⟩ := join_right hs hjoin
    · cases hne
    · exact hheld
  have howner : Mutex.runner ∈ s.held t := by
    rw [hheld]
    exact Set.mem_singleton _
  have hgone : s.gone (.reactor j) = false := by
    by_contra hnot
    have hdone := hs.ended (.reactor j) (Bool.not_eq_false _ ▸ hnot)
    cases hdone.symm.trans hlock
  exact Threads.deadlock_of_two ⟨.life (.reactor j), ⟨next, hjoin⟩, rfl, hgone⟩
    ⟨.lock .runner, ⟨next', hlock⟩, howner⟩

/-! ## Runs -/

/-- `Stop` does not go on to join a reactor thread that waits for the mutex of the runner, and no
such thread takes up `OnSocketError` while it is joined. -/
def Clear (s : System) : Event → Prop
  | .advance t => ∀ u j next, s.advance t = some u → u.prog t = .join (.reactor j) next →
      ¬ AtRunner s j
  | .onSocketError j _ => ¬ Joined s j
  | _ => True

theorem call_ne_join {p : Prog} (h : e.call? reactors = some (t, p)) (v : Thread) (next : Prog) :
    p ≠ .join v next := by
  rintro rfl
  cases e <;> cases h

theorem joined_step {j : Nat} (h : step reactors s e = some u) (hj : Joined u j) :
    Joined s j ∨ ∃ t next, e = .advance t ∧ u.prog t = .join (.reactor j) next := by
  obtain ⟨t', next, hjoin⟩ := hj
  rcases step_cases h with ⟨t, p, hcall, h⟩ | ⟨t, rfl, h⟩ | ⟨t, rfl, h⟩
  · obtain ⟨rfl, -⟩ := Threads.prog_call h
    rw [prog_become] at hjoin
    split at hjoin
    · exact absurd hjoin (call_ne_join hcall _ next)
    · exact .inl ⟨t', next, hjoin⟩
  · by_cases ht : t' = t
    · subst ht
      exact .inr ⟨t', next, rfl, hjoin⟩
    · obtain ⟨hprog, -, -⟩ := Threads.prog_advance h
      rw [hprog, Function.update_of_ne ht] at hjoin
      exact .inl ⟨t', next, hjoin⟩
  · rw [Threads.prog_leave h] at hjoin
    exact .inl ⟨t', next, hjoin⟩

theorem atRunner_step {j : Nat} (hs : Sound s) (h : step reactors s e = some u)
    (hj : AtRunner u j) : AtRunner s j ∨ ∃ l, e = .onSocketError j l := by
  obtain ⟨next, hlock⟩ := hj
  rcases step_cases h with ⟨t, p, hcall, h⟩ | ⟨t, rfl, h⟩ | ⟨t, rfl, h⟩
  · obtain ⟨rfl, -⟩ := Threads.prog_call h
    rw [prog_become] at hlock
    split at hlock
    · rename_i ht
      subst ht
      rcases reactor_call hcall with hfree | ⟨l, -, he, -⟩
      · rw [hlock] at hfree
        exact absurd rfl hfree.1
      · exact .inr ⟨l, he⟩
    · exact .inl ⟨next, hlock⟩
  · by_cases ht : .reactor j = t
    · subst ht
      have hfree := Threads.free_advance (hs.reactor j) h
      rw [hlock] at hfree
      exact absurd rfl hfree.1
    · obtain ⟨hprog, -, -⟩ := Threads.prog_advance h
      rw [hprog, Function.update_of_ne ht] at hlock
      exact .inl ⟨next, hlock⟩
  · rw [Threads.prog_leave h] at hlock
    exact .inl ⟨next, hlock⟩

theorem apart_step (hs : Sound s) (hfree : ∀ j, Joined s j → ¬ AtRunner s j) (hclear : Clear s e)
    (h : step reactors s e = some u) (j : Nat) (hjoin : Joined u j) : ¬ AtRunner u j := by
  intro hlock
  rcases joined_step h hjoin with hold | ⟨t, next, rfl, hnew⟩
  · rcases atRunner_step hs h hlock with hwas | ⟨l, rfl⟩
    · exact hfree j hold hwas
    · exact hclear hold
  · rcases atRunner_step hs h hlock with hwas | ⟨l, he⟩
    · exact hclear u j next h hnew hwas
    · cases he

theorem clear_of_not_deadlock (hs : Sound s) (h : step reactors s e = some u)
    (hu : ¬ u.Deadlock) : Clear s e := by
  have hs' := sound_step hs h
  cases e with
  | advance t =>
    rintro v j next hv hjoin ⟨next', hlock⟩
    cases hv.symm.trans h
    have ht : .reactor j ≠ t := by
      rintro rfl
      exact reactor_ne_join hs' j _ next hjoin
    obtain ⟨hprog, -, -⟩ := Threads.prog_advance hv
    refine hu (deadlock_of_joined hs' ⟨t, next, hjoin⟩ ⟨next', ?_⟩)
    rw [hprog, Function.update_of_ne ht]
    exact hlock
  | onSocketError j l =>
    rintro ⟨t, next, hjoin⟩
    have ht : t ≠ .reactor j := by
      rintro rfl
      exact reactor_ne_join hs j _ next hjoin
    obtain ⟨rfl, -⟩ := Threads.prog_call h
    have hjoin' : Joined (s.become (.reactor j) (onSocketError l)) j :=
      ⟨t, next, by rw [prog_become, if_neg ht]; exact hjoin⟩
    have hlock : AtRunner (s.become (.reactor j) (onSocketError l)) j :=
      ⟨_, by rw [prog_become, if_pos rfl]; rfl⟩
    exact hu (deadlock_of_joined hs' hjoin' hlock)
  | stop | onUpdateTimer | onSocketShutdown | onSocketReadable | command | scheduled
  | leave => trivial

/-- The threads of a runner never wait in a cycle in exactly the runs in which `Stop` does not
join a reactor thread that has come to lock the mutex of the runner in `OnSocketError`. -/
theorem no_cycle_iff (reactors : List Nat) (es : List Event) :
    Always (step reactors) (fun s => ¬ s.Deadlock) running es ↔
      Steps (step reactors) Clear running es := by
  refine always_iff_steps (J := Sound) (I := fun s => ¬ s.Deadlock) sound_running ?_
    (fun _ _ _ => sound_step) (fun _ h => h) ?_ ?_ es
  · refine not_deadlock sound_running ?_
    rintro j ⟨t, next, hjoin⟩
    cases hjoin
  · intro s e u hs hfree hclear h
    refine not_deadlock (sound_step hs h) (apart_step hs (fun j hjoin hlock => ?_) hclear h)
    exact hfree (deadlock_of_joined hs hjoin hlock)
  · exact fun s e u hs _ h hu => clear_of_not_deadlock hs h hu

/-- `Stop` has locked the mutex of the runner when an error on a socket takes a reactor thread into
`OnSocketError`, and goes on to join that thread. -/
theorem error_while_stopping :
    ¬ ∀ reactors es, Always (step reactors) (fun s => ¬ s.Deadlock) running es := by
  intro h
  let locked : List Event :=
    [.stop 0, .advance (.stop 0), .advance (.stop 0), .advance (.stop 0), .leave .timer,
      .advance (.stop 0), .advance (.stop 0)]
  let es := locked ++ [.onSocketError 0 { found := none }, .advance (.stop 0)]
  refine (h [0] es).here rfl ?_
  refine Threads.deadlock_of_two (t := .stop 0) (u := .reactor 0) ?_ ?_
  · exact ⟨.life (.reactor 0), ⟨_, rfl⟩, rfl, rfl⟩
  · exact ⟨.lock .runner, ⟨_, rfl⟩, rfl⟩

end Owls.WaitCycles
