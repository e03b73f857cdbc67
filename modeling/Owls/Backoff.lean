import Owls.Connections

/-!
# Back-off

The delay of each connection task that a client schedules is what `Backoff()` gives.
-/

open Machine

namespace Owls

def OWLSclient.backoff (b : UInt16) : UInt16 := if b > 300 then 15 else b * 2

namespace Backoff

/-- `Backoff_`, and the delays since the last `Connect` that got through. -/
structure Delays where
  backoff : UInt16 := 0
  delays : List UInt16 := []
deriving DecidableEq

inductive Call where
  | connect | backoff
deriving DecidableEq

def Delays.call (d : Delays) : Call → Delays
  | .connect => {}
  | .backoff =>
    let b := OWLSclient.backoff d.backoff
    { backoff := b, delays := d.delays ++ [b] }

/-! ## The calls of the bodies -/

section Calls

variable (c : Client) (o : Outcome)

def connectingCalls : Connecting → List Call
  | .contextThrows => []
  | .socketThrows | .optionThrows | .notSent => [.backoff]
  | .sent _ n => .connect :: if 3 ≤ n then [] else [.backoff]

def disconnectCalls : List Call := if c.closes o.closing then [.backoff] else []

def answerCalls : List Call := if o.sent then [] else disconnectCalls c o

def taskCalls : Task → List Call
  | .establishConnection => connectingCalls o.connecting
  | .reconnect => [.backoff]
  | .state | .healthCheck | .log | .wsPing => if c.connected then answerCalls c o else []

def waitingCalls : Waiting → List Call
  | .disconnecting => []
  | .reconnecting => [.backoff]
  | .reading =>
    match o.frame with
    | .quiet | .command _ => []
    | .failed => disconnectCalls c o
    | .unsupported => answerCalls c o
  | .command r => if r.legal then answerCalls c o else []

def calls : Work → List Call
  | .task i => (c.tasks[i]?.map (taskCalls c o)).getD []
  | .waiting i => (c.waiting[i]?.map (waitingCalls c o)).getD []
  | .wake => disconnectCalls c o

end Calls

/-! ## The machine -/

structure State where
  runner : Runner
  delays : Nat → Delays := fun _ => {}

def State.call (s : State) : Runner.Event → Nat → Delays
  | .body c work o => Function.update s.delays c
      (((s.runner.clients[c]?.map (calls · o work)).getD []).foldl Delays.call (s.delays c))
  | _ => s.delays

def step (s : State) (e : Runner.Event) : Option State :=
  (Runner.step s.runner e).map fun r => { runner := r, delays := s.call e }

def start (l : Launch) : State := { runner := l.runner }

/-- Each delay is positive, and twice the one before it, up to one above 300, after which it goes
on from 15. -/
structure Exponential (ds : List UInt16) : Prop where
  positive : ∀ d ∈ ds, 0 < d
  doubles : ∀ i a b, ds[i]? = some a → ds[i + 1]? = some b →
    if a > 300 then b = 15 else b.toNat = 2 * a.toNat

/-! ## One call is one connection task -/

open Runner (pending)

section Scheduled

variable {c c' : Client} {o : Outcome}

theorem pending_schedule {t : Task} (h : t.connects = true) :
    pending (c.schedule t) = pending c + 1 := by
  simp [pending, Client.schedule, h]

theorem pending_reconnecting : pending (c.reconnecting o.closing) =
    pending c + (disconnectCalls c o).count .backoff := by
  unfold Client.reconnecting disconnectCalls
  split
  · rw [pending_schedule rfl]
    rfl
  · rfl

theorem pending_answer :
    pending (c.answer o) = pending c + (answerCalls c o).count .backoff := by
  unfold Client.answer answerCalls
  split
  · rfl
  · exact pending_reconnecting

theorem pending_establish (a : Connecting) :
    pending (c.establish a) = pending c + (connectingCalls a).count .backoff := by
  cases a with
  | contextThrows => rfl
  | socketThrows | optionThrows | notSent => exact pending_schedule rfl
  | sent fd n =>
    have htimers : [Task.state, .healthCheck, .log, .wsPing].countP Task.connects = 0 := by decide
    simp only [Client.establish, connectingCalls]
    split
    · simp [pending, htimers]
    · simp [pending, Client.schedule, Task.connects]

theorem pending_runTask (t : Task) :
    pending (c.runTask t o) = pending c + (taskCalls c o t).count .backoff := by
  have htimer (t : Task) (ht : t.connects = false) : pending (c.timer t o) =
      pending c + (if c.connected then answerCalls c o else []).count .backoff := by
    unfold Client.timer answerCalls
    split
    · split
      · split
        · rfl
        · simp [pending, Client.schedule, ht]
      · exact pending_reconnecting
    · rfl
  cases t with
  | establishConnection => exact pending_establish o.connecting
  | reconnect => exact pending_schedule rfl
  | state | healthCheck | log | wsPing => exact htimer _ rfl

theorem pending_runWaiting (w : Waiting) :
    pending (c.runWaiting w o) = pending c + (waitingCalls c o w).count .backoff := by
  cases w with
  | disconnecting =>
    unfold Client.runWaiting
    dsimp only
    split <;> rfl
  | reconnecting => exact pending_schedule rfl
  | reading =>
    unfold Client.runWaiting waitingCalls
    cases o.frame with
    | quiet | command => rfl
    | failed => exact pending_reconnecting
    | unsupported => exact pending_answer
  | command r =>
    unfold Client.runWaiting Client.runCommand waitingCalls
    dsimp only
    split
    · rename_i hrestarts
      rw [if_pos (legal_of_restarts hrestarts)]
      unfold Client.restart answerCalls
      split
      · split <;> rfl
      · exact pending_reconnecting
    · split
      · exact pending_answer
      · rfl

/-- The task that a body takes, if that is one. -/
def taken (c : Client) : Work → Option Task
  | .task i => c.tasks[i]?
  | _ => none

theorem count_backoff {work : Work} (h : c.Performs o work c') :
    pending c' + (if (taken c work).any Task.connects then 1 else 0) =
      pending c + (calls c o work).count .backoff := by
  have htaken {i : Nat} {t : Task} (ht : c.tasks[i]? = some t) :
      pending (c.takeTask i) + (if (taken c (.task i)).any Task.connects then 1 else 0) =
        pending c := by
    rw [taken, ht]
    exact countP_takeTask Task.connects ht
  cases h with
  | lost ht ho =>
    rw [htaken ht, calls, ht]
    simp [taskCalls, connectingCalls, ho]
  | @task i t ht hfree ho =>
    have hcalls : taskCalls (c.takeTask i) o t = taskCalls c o t := rfl
    rw [pending_runTask, Nat.add_right_comm, htaken ht, calls, ht, hcalls]
    rfl
  | @waiting i w hw hfree =>
    have hcalls : waitingCalls (c.takeWaiting i) o w = waitingCalls c o w := rfl
    rw [pending_runWaiting, calls, hw, hcalls]
    rfl
  | wake hheld =>
    rw [Client.wake, pending_reconnecting]
    rfl

end Scheduled

/-! ## The delays from a value on -/

def delaysFrom (b : UInt16) : Nat → List UInt16
  | 0 => []
  | n + 1 => OWLSclient.backoff b :: delaysFrom (OWLSclient.backoff b) n

theorem backoff_of_gt {b : UInt16} (h : b > 300) : OWLSclient.backoff b = 15 := if_pos h

theorem backoff_toNat {b : UInt16} (h : ¬ b > 300) :
    (OWLSclient.backoff b).toNat = 2 * b.toNat := by
  have hle : b.toNat ≤ 300 := by
    rw [gt_iff_lt, UInt16.not_lt, UInt16.le_iff_toNat_le] at h
    exact h
  rw [OWLSclient.backoff, if_neg h, UInt16.toNat_mul]
  change b.toNat * 2 % 2 ^ 16 = _
  omega

theorem backoff_pos {b : UInt16} : 0 < OWLSclient.backoff b ↔ 0 < b := by
  by_cases h : b > 300
  · rw [backoff_of_gt h]
    refine iff_of_true (by decide) ?_
    rw [gt_iff_lt, UInt16.lt_iff_toNat_lt] at h
    rw [UInt16.lt_iff_toNat_lt]
    exact Nat.zero_lt_of_lt h
  · have hnat := backoff_toNat h
    have hzero : (0 : UInt16).toNat = 0 := rfl
    rw [UInt16.lt_iff_toNat_lt, UInt16.lt_iff_toNat_lt, hnat]
    omega

theorem exponential_cons {b : UInt16} (hb : 0 < b) (n : Nat) :
    Exponential (b :: delaysFrom b n) := by
  induction n generalizing b with
  | zero => exact ⟨by simpa [delaysFrom] using hb, by simp [delaysFrom]⟩
  | succ n ih =>
    obtain ⟨hpositive, hdoubles⟩ := ih (backoff_pos.mpr hb)
    refine ⟨List.forall_mem_cons.mpr ⟨hb, hpositive⟩, fun i x y hx hy => ?_⟩
    cases i with
    | zero =>
      cases hx
      cases hy
      split
      · rename_i hgt
        exact backoff_of_gt hgt
      · rename_i hle
        exact backoff_toNat hle
    | succ i => exact hdoubles i x y hx hy

theorem exponential_iff (b : UInt16) (n : Nat) : Exponential (delaysFrom b (n + 1)) ↔ 0 < b := by
  rw [← backoff_pos]
  constructor
  · intro h
    exact h.positive _ List.mem_cons_self
  · intro hb
    exact exponential_cons hb n

/-! ## Runs -/

/-- The delays are those from zero on, up to the value that is reached. -/
structure FromZero (d : Delays) : Prop where
  delays : d.delays = delaysFrom 0 d.delays.length
  backoff : d.backoff = 0

variable {s u : State} {e : Runner.Event}

theorem delaysFrom_zero (n : Nat) : delaysFrom 0 n = List.replicate n 0 := by
  induction n with
  | zero => rfl
  | succ n ih =>
    have hzero : OWLSclient.backoff 0 = 0 := by decide
    rw [delaysFrom, hzero, ih]
    rfl

theorem FromZero.call {d : Delays} (h : FromZero d) (x : Call) : FromZero (d.call x) := by
  cases x with
  | connect => exact ⟨rfl, rfl⟩
  | backoff =>
    have hnext : OWLSclient.backoff d.backoff = 0 := by
      rw [h.backoff]
      decide
    have hdelays := h.delays
    refine ⟨?_, hnext⟩
    simp only [Delays.call, hnext, List.length_append, List.length_singleton]
    rw [delaysFrom_zero] at hdelays ⊢
    rw [List.replicate_succ', ← hdelays]

theorem FromZero.foldl {d : Delays} (h : FromZero d) (xs : List Call) :
    FromZero (xs.foldl Delays.call d) :=
  List.foldlRecOn xs Delays.call h fun _ hd x _ => hd.call x

theorem step_fromZero (h : ∀ c, FromZero (s.delays c)) (hu : step s e = some u) :
    ∀ c, FromZero (u.delays c) := by
  obtain ⟨r, -, rfl⟩ := Option.map_eq_some_iff.mp hu
  intro c
  cases e with
  | create | callback => exact h c
  | body c' work o =>
    change FromZero (Function.update s.delays c' _ c)
    by_cases hc : c = c'
    · subst hc
      rw [Function.update_self]
      exact (h c).foldl _
    · rw [Function.update_of_ne hc]
      exact h c

theorem always_fromZero (l : Launch) (es : List Runner.Event) :
    Always step (fun s => ∀ c, FromZero (s.delays c)) (start l) es :=
  always_of_step (fun _ => ⟨rfl, rfl⟩) (fun _ _ _ => step_fromZero) es

theorem take_delaysFrom (b : UInt16) {n k : Nat} (h : n ≤ k) :
    (delaysFrom b k).take n = delaysFrom b n := by
  induction n generalizing b k with
  | zero => rfl
  | succ n ih =>
    cases k with
    | zero => cases h
    | succ k => rw [delaysFrom, delaysFrom, List.take_succ_cons, ih _ (Nat.le_of_succ_le_succ h)]

/-- In no run do the delays of a client back off: a connection leaves zero, and nothing grows out of
that. -/
theorem never_exponential (l : Launch) {es : List Runner.Event}
    (hs : run step (start l) es = some s) (c n : Nat) (hn : 1 ≤ n)
    (hlength : n ≤ (s.delays c).delays.length) : ¬ Exponential ((s.delays c).delays.take n) := by
  have hzero := (always_fromZero l es).here hs c
  obtain ⟨n, rfl⟩ := Nat.exists_eq_succ_of_ne_zero (Nat.ne_of_gt hn)
  rw [hzero.delays, take_delaysFrom 0 hlength, exponential_iff]
  decide

def notSentOnce : List Runner.Event := [.create, .body 0 (.task 0) { connecting := .notSent }]

theorem run_notSentOnce : ∃ s, run step (start { devices := 1 }) notSentOnce = some s ∧
    s.delays 0 = { delays := [0] } := ⟨_, rfl, rfl⟩

theorem never_exponential_once :
    ∃ s, run step (start { devices := 1 }) notSentOnce = some s ∧
      ¬ Exponential ((s.delays 0).delays.take 1) := by
  obtain ⟨s, hs, hdelays⟩ := run_notSentOnce
  have hlength : 1 ≤ (s.delays 0).delays.length := by rw [hdelays]; decide
  exact ⟨s, hs, never_exponential { devices := 1 } hs 0 1 (by decide) hlength⟩

/-- The first connection that fails is tried again at once. -/
theorem tried_again_at_once :
    ¬ ∀ (l : Launch) (es : List Runner.Event) (s : State), run step (start l) es = some s →
      ∀ c n, 1 ≤ n → n ≤ (s.delays c).delays.length → Exponential ((s.delays c).delays.take n) := by
  intro h
  obtain ⟨s, hs, hdelays⟩ := run_notSentOnce
  have hlength : 1 ≤ (s.delays 0).delays.length := by rw [hdelays]; decide
  have hexp := h { devices := 1 } notSentOnce s hs 0 1 (by decide) hlength
  rw [hdelays] at hexp
  have hpos : (0 : UInt16) < 0 := hexp.positive 0 (by decide)
  exact absurd hpos (by decide)

end Backoff

end Owls
