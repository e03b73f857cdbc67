import Mathlib.Data.List.Perm.Basic
import Owls.Client

/-!
# One client on its own

What the bodies do to the client whose mutex they hold, and to the live devices, without the
rest of the runner: a machine of its own, which the bodies simulate.
-/

namespace Owls

/-! ## The bodies -/

namespace Client

def establish (c : Client) : Connecting → Client
  | .contextThrows => c
  | .socketThrows => c.schedule .reconnect
  | .optionThrows | .notSent => { c with handlers := {} }.schedule .reconnect
  | .sent fd n =>
    let c := { c with
      tasks := c.tasks ++ [Task.state, .healthCheck, .log, .wsPing]
      fd := some fd
      handlers := .first n }
    if 3 ≤ n then { c with connected := true } else c.schedule .reconnect

def reconnect (c : Client) : Client :=
  { c with connected := false }.schedule .establishConnection

def timer (c : Client) (t : Task) (o : Outcome) : Client :=
  if c.connected then
    if o.sent then (if t = .log then c else c.schedule t) else c.reconnecting o.closing
  else c

def runTask (c : Client) (t : Task) (o : Outcome) : Client :=
  match t with
  | .establishConnection => c.establish o.connecting
  | .reconnect => c.reconnect
  | .state | .healthCheck | .log | .wsPing => c.timer t o

def answer (c : Client) (o : Outcome) : Client := if o.sent then c else c.reconnecting o.closing

def restart (c : Client) (command : Command) (continues : Bool) (o : Outcome) : Client :=
  if o.sent then
    if c.closes o.closing && continues then
      { c.disconnected o.closing with sleeping := some command }
    else c.disconnected o.closing
  else c.reconnecting o.closing

end Client

/-- What a legal command does when nothing is in its way: whether it disconnects and sleeps, and
whether it gets to its sleep. -/
def CommandRequest.restarts (r : CommandRequest) : Bool :=
  r.legal && (r.command = .reboot || r.command = .upgrade || r.command = .factory)

theorem legal_of_restarts {r : CommandRequest} (h : r.restarts = true) : r.legal = true :=
  (Bool.and_eq_true_iff.mp h).1

def CommandRequest.continues (r : CommandRequest) : Bool :=
  r.command ≠ .upgrade || r.uriParses

namespace Client

def runCommand (c : Client) (r : CommandRequest) (o : Outcome) : Client :=
  if r.restarts then c.restart r.command r.continues o
  else if r.legal then c.answer o
  else c

def runWaiting (c : Client) (w : Waiting) (o : Outcome) : Client :=
  match w with
  | .disconnecting =>
    if c.closes o.closing then
      { c.disconnected o.closing with waiting := c.waiting ++ [.reconnecting] }
    else c.disconnected o.closing
  | .reconnecting => c.reconnect
  | .reading =>
    match o.frame with
    | .quiet => c
    | .failed => c.reconnecting o.closing
    | .command r => { c with waiting := c.waiting ++ [.command r] }
    | .unsupported => c.answer o
  | .command r => c.runCommand r o

def wake (c : Client) (o : Outcome) : Client := { c with sleeping := none }.reconnecting o.closing

end Client

variable {h : Locked} {o : Outcome}

theorem reconnecting_client (closing : Closing) :
    (OWLSClientEvents.disconnect h closing).client = h.client.reconnecting closing := by
  rw [reconnecting_eq]

theorem establish_client :
    (OWLSClientEvents.establishConnection h o).client = h.client.establish o.connecting := by
  unfold OWLSClientEvents.establishConnection Client.establish
  cases o.connecting with
  | contextThrows | socketThrows | optionThrows | notSent => rfl
  | sent fd n =>
    simp only
    split <;> simp [Locked.addClientFd, OWLSClientEvents.connect, Locked.statsConnect,
      Locked.schedule, Client.schedule]

theorem timer_client (t : Task) : (OWLSClientEvents.timer h t o).client = h.client.timer t o := by
  unfold OWLSClientEvents.timer Client.timer
  split
  · split
    · split <;> rfl
    · exact reconnecting_client o.closing
  · rfl

theorem runTask_client (t : Task) : (t.run h o).client = h.client.runTask t o := by
  cases t with
  | establishConnection => exact establish_client
  | reconnect => rfl
  | state | healthCheck | log | wsPing => exact timer_client _

theorem answer_client : (OWLSclient.answer h o).client = h.client.answer o := by
  unfold OWLSclient.answer Client.answer
  split
  · rfl
  · exact reconnecting_client o.closing

theorem restart_client (command : Command) (continues : Bool) :
    (OWLSclient.restart h command continues o).client = h.client.restart command continues o := by
  unfold OWLSclient.restart Client.restart
  split
  · rw [disconnect_eq]
    cases h.client.closes o.closing <;> cases continues <;> rfl
  · exact reconnecting_client o.closing

theorem runCommand_client (r : CommandRequest) :
    (r.run h o).client = h.client.runCommand r o := by
  obtain ⟨command, legal, uriParses⟩ := r
  cases legal with
  | false => cases command <;> rfl
  | true =>
    cases command with
    | configure | leds => exact answer_client
    | reboot | upgrade | factory => exact restart_client _ _

theorem runWaiting_client (w : Waiting) : (w.run h o).client = h.client.runWaiting w o := by
  cases w with
  | reconnecting => rfl
  | command r => exact runCommand_client r
  | disconnecting =>
    simp only [Waiting.run, SimulationRunner.onSocketClosed, Client.runWaiting]
    rw [disconnect_eq]
    cases h.client.closes o.closing <;> rfl
  | reading =>
    simp only [Waiting.run, SimulationRunner.onSocketReadable, Client.runWaiting]
    cases o.frame with
    | quiet | command => rfl
    | failed => exact reconnecting_client o.closing
    | unsupported => exact answer_client

theorem wake_client : (OWLSclient.wake h o).client = h.client.wake o :=
  reconnecting_client o.closing

/-! ## The machine -/

def Client.takeTask (c : Client) (i : Nat) : Client := { c with tasks := c.tasks.eraseIdx i }

def Client.takeWaiting (c : Client) (i : Nat) : Client :=
  { c with waiting := c.waiting.eraseIdx i }

theorem countP_takeTask {c : Client} {i : Nat} {t : Task} (p : Task → Bool)
    (ht : c.tasks[i]? = some t) :
    (c.takeTask i).tasks.countP p + (if p t then 1 else 0) = c.tasks.countP p := by
  obtain ⟨hi, rfl⟩ := List.getElem?_eq_some_iff.mp ht
  rw [← (List.getElem_cons_eraseIdx_perm hi).countP_eq, List.countP_cons]
  rfl

theorem count_takeTask {c : Client} {i : Nat} {t : Task} (ht : c.tasks[i]? = some t) (k : Task) :
    (c.takeTask i).tasks.count k + (if t = k then 1 else 0) = c.tasks.count k := by
  have hcount := countP_takeTask (· == k) ht
  simp only [beq_iff_eq] at hcount
  exact hcount

/-- A body takes a client to the next: the context of a connection throws before the mutex is
taken, every other body needs the mutex free, and only the command that sleeps wakes. -/
inductive Client.Performs (c : Client) (o : Outcome) : Work → Client → Prop where
  | lost {i : Nat} (ht : c.tasks[i]? = some .establishConnection)
      (ho : o.connecting = .contextThrows) : Performs c o (.task i) (c.takeTask i)
  | task {i : Nat} {t : Task} (ht : c.tasks[i]? = some t) (hfree : c.sleeping = none)
      (ho : t = .establishConnection → o.connecting ≠ .contextThrows) :
      Performs c o (.task i) ((c.takeTask i).runTask t o)
  | waiting {i : Nat} {w : Waiting} (hw : c.waiting[i]? = some w) (hfree : c.sleeping = none) :
      Performs c o (.waiting i) ((c.takeWaiting i).runWaiting w o)
  | wake (hheld : c.sleeping.isSome) : Performs c o .wake (c.wake o)

theorem performs_of_perform {work : Work} {h' : Locked} (hp : h.perform work o = some h') :
    h.client.Performs o work h'.client := by
  cases work with
  | task i =>
    simp only [Locked.perform, Option.bind_eq_bind, Option.bind_eq_some_iff] at hp
    obtain ⟨t, ht, hp⟩ := hp
    split at hp
    · rename_i hlost
      cases hp
      exact .lost (hlost.1 ▸ ht) hlost.2
    · rename_i hlost
      split at hp
      · cases hp
      · rename_i hfree
        cases hp
        rw [runTask_client]
        exact .task ht (by simpa using hfree) fun he ho => hlost ⟨he, ho⟩
  | waiting i =>
    simp only [Locked.perform, Option.bind_eq_bind, Option.bind_eq_some_iff] at hp
    obtain ⟨w, hw, hp⟩ := hp
    split at hp
    · cases hp
    · rename_i hfree
      cases hp
      rw [runWaiting_client]
      exact .waiting hw (by simpa using hfree)
  | wake =>
    simp only [Locked.perform] at hp
    split at hp
    · rename_i hheld
      cases hp
      rw [wake_client]
      exact .wake hheld
    · cases hp

/-! ## A client that sleeps is off -/

variable {c c' : Client}

theorem connected_disconnected {closing : Closing} (h : c.closes closing = true) :
    (c.disconnected closing).connected = false := by
  simp only [Client.closes, Bool.or_eq_true, Bool.not_eq_true', decide_eq_true_eq] at h
  rcases h with h | h <;> simp [Client.disconnected, h]

theorem sleeping_reconnecting (closing : Closing) :
    (c.reconnecting closing).sleeping = c.sleeping := by
  unfold Client.reconnecting
  split <;> rfl

theorem sleeping_answer : (c.answer o).sleeping = c.sleeping := by
  unfold Client.answer
  split
  · rfl
  · exact sleeping_reconnecting o.closing

theorem sleeping_runTask (t : Task) : (c.runTask t o).sleeping = c.sleeping := by
  have htimer : (c.timer t o).sleeping = c.sleeping := by
    unfold Client.timer
    split
    · split
      · split <;> rfl
      · exact sleeping_reconnecting o.closing
    · rfl
  cases t with
  | establishConnection =>
    simp only [Client.runTask]
    cases o.connecting with
    | contextThrows | socketThrows | optionThrows | notSent => rfl
    | sent fd n =>
      simp only [Client.establish]
      split <;> rfl
  | reconnect => rfl
  | state | healthCheck | log | wsPing => exact htimer

def SleepsOff (c : Client) : Prop := c.sleeping.isSome → c.connected = false

theorem sleepsOff_runWaiting (w : Waiting) (h : c.sleeping = none) :
    SleepsOff (c.runWaiting w o) := by
  -- Only a command that restarts the device sets `sleeping`.
  have hkeep : ∀ c' : Client, c'.sleeping = c.sleeping → SleepsOff c' := by
    intro c' hc' hsome
    rw [hc', h] at hsome
    cases hsome
  cases w with
  | disconnecting =>
    refine hkeep _ ?_
    simp only [Client.runWaiting]
    split <;> rfl
  | reconnecting => exact hkeep _ rfl
  | reading =>
    refine hkeep _ ?_
    simp only [Client.runWaiting]
    cases o.frame with
    | quiet | command => rfl
    | failed => exact sleeping_reconnecting o.closing
    | unsupported => exact sleeping_answer
  | command r =>
    simp only [Client.runWaiting, Client.runCommand]
    split
    · unfold Client.restart
      split
      · split
        · rename_i hcloses
          rw [Bool.and_eq_true] at hcloses
          exact fun _ => connected_disconnected hcloses.1
        · exact hkeep _ rfl
      · exact hkeep _ (sleeping_reconnecting o.closing)
    · split
      · exact hkeep _ sleeping_answer
      · exact hkeep _ rfl

theorem sleepsOff_of_performs {work : Work} (h : c.Performs o work c') (hc : SleepsOff c) :
    SleepsOff c' := by
  cases h with
  | lost ht ho => exact hc
  | task ht hfree ho =>
    intro hsome
    rw [sleeping_runTask] at hsome
    rw [Client.takeTask, hfree] at hsome
    cases hsome
  | waiting hw hfree => exact sleepsOff_runWaiting _ hfree
  | wake hheld =>
    intro hsome
    rw [Client.wake, sleeping_reconnecting] at hsome
    cases hsome

end Owls
