import Mathlib.Logic.Function.Basic
import Owls.SimStats

/-!
# The bodies that run under a client's mutex

This is the machine of a simulation that runs: `Running_` and every `Valid_` are true
throughout, and the early returns of a stopped one are left out. So are the contents of the
messages, and the delays of the tasks: the scheduler may run them in any order.
-/

namespace Owls

/-! ## Clients -/

inductive Task where
  | establishConnection | reconnect | state | healthCheck | log | wsPing
deriving DecidableEq

def Task.connects : Task → Bool
  | .establishConnection | .reconnect => true
  | _ => false

inductive Command where
  | configure | reboot | upgrade | factory | leds
deriving DecidableEq

/-- A request of the gateway. `legal`: it has the parameters that its command reads, and they
convert. `uriParses`: `Poco::URI` takes the `uri` of an upgrade. -/
structure CommandRequest where
  command : Command
  legal : Bool := true
  uriParses : Bool := true
deriving DecidableEq

/-- A thread that waits for the client's mutex: a socket callback that has found the client, one
that has disconnected it and calls `Reconnect` next, or a detached command. -/
inductive Waiting where
  | disconnecting | reconnecting | reading
  | command (r : CommandRequest)
deriving DecidableEq

structure Handlers where
  readable : Bool := false
  error : Bool := false
  shutdown : Bool := false
deriving DecidableEq

/-- After the first `n` calls of `addEventHandler`. -/
def Handlers.first (n : Nat) : Handlers := ⟨0 < n, 1 < n, 2 < n⟩

/-- After the first `n` calls of `removeEventHandler`. -/
def Handlers.without (h : Handlers) (n : Nat) : Handlers :=
  ⟨h.readable && n < 1, h.error && n < 2, h.shutdown && n < 3⟩

def Handlers.all : Handlers := .first 3

theorem Handlers.first_of_le {n : Nat} (h : 3 ≤ n) : Handlers.first n = .all := by
  simp only [Handlers.first, Handlers.all, Handlers.mk.injEq, decide_eq_decide]
  omega

/-- An `OWLSclient`, with its tasks in the scheduler, the threads that wait for its mutex, and
the command that sleeps while it holds the mutex. -/
structure Client where
  connected : Bool := false
  fd : Option Int := none
  handlers : Handlers := {}
  tasks : List Task := []
  waiting : List Waiting := []
  sleeping : Option Command := none
deriving DecidableEq

/-! ## What Poco answers -/

/-- The way of `EstablishConnection`. `contextThrows`: before the `try` block.
`optionThrows`: after `WS_` is replaced. `sent fd n`: the connect message is sent, and the first
`n` calls of `addEventHandler` go through, of three. -/
inductive Connecting where
  | contextThrows | socketThrows | optionThrows | notSent
  | sent (fd : Int) (n : Nat)
deriving DecidableEq

/-- The way of `OWLSclient::Disconnect` on a connected client. `removeThrows n`: the
`removeEventHandler` after the first `n` throws. -/
inductive Closing where
  | done
  | removeThrows (n : Fin 3)
  | closeThrows
deriving DecidableEq

def Closing.removed : Closing → Nat
  | .removeThrows n => n
  | .done | .closeThrows => 3

/-- The frame that `OnSocketReadable` gets. `quiet` needs no answer or gets it; `failed` is an
empty frame, an exception, or a lost answer. -/
inductive Frame where
  | quiet | failed
  | command (r : CommandRequest)
  | unsupported
deriving DecidableEq

structure Outcome where
  connecting : Connecting := .notSent
  sent : Bool := true
  closing : Closing := .done
  frame : Frame := .quiet
  now : UInt64 := 0

/-! ## A locked client -/

structure Shared where
  master : Bool := true
  runningId : String := ""
  clientsFd : Int → Option Nat := fun _ => none
  stats : SimStats.Statuses := ∅

structure Locked where
  index : Nat
  client : Client
  shared : Shared

namespace Locked

def schedule (h : Locked) (t : Task) : Locked :=
  { h with client := { h.client with tasks := h.client.tasks ++ [t] } }

def spawn (h : Locked) (w : Waiting) : Locked :=
  { h with client := { h.client with waiting := h.client.waiting ++ [w] } }

def addClientFd (h : Locked) (fd : Int) : Locked :=
  { h with
    client := { h.client with fd := some fd }
    shared := { h.shared with clientsFd := Function.update h.shared.clientsFd fd (some h.index) } }

def removeClientFd (h : Locked) : Locked :=
  match h.client.fd with
  | none => h
  | some fd =>
    { h with
      client := { h.client with fd := none }
      shared := { h.shared with clientsFd := Function.update h.shared.clientsFd fd none } }

def statsConnect (h : Locked) (now : UInt64) : Locked :=
  { h with shared := { h.shared with
      stats := SimStats.connect h.shared.master now h.shared.stats h.shared.runningId } }

def statsDisconnect (h : Locked) : Locked :=
  { h with shared := { h.shared with
      stats := SimStats.disconnect h.shared.stats h.shared.runningId } }

end Locked

/-! ## Disconnecting -/

/-- `OWLSclient::Disconnect`, and whether it returns. -/
def OWLSclient.disconnect (h : Locked) (c : Closing) : Locked × Bool :=
  let h := h.removeClientFd.statsDisconnect
  if h.client.connected then
    let client := { h.client with handlers := h.client.handlers.without c.removed }
    match c with
    | .done => ({ h with client := { client with connected := false } }, true)
    | _ => ({ h with client }, false)
  else (h, true)

namespace OWLSClientEvents

/-- `Disconnect`, always called to reconnect. The exception of the first call ends it. -/
def disconnect (h : Locked) (c : Closing) : Locked :=
  match OWLSclient.disconnect h c with
  | (h, true) => h.schedule .establishConnection
  | (h, false) => h

def reconnect (h : Locked) : Locked :=
  { h with client := { h.client with connected := false } }.schedule .establishConnection

/-! ## Connecting -/

/-- `Connect`, with the message sent. -/
def connect (h : Locked) (now : UInt64) : Locked :=
  ((((h.schedule .state).schedule .healthCheck).schedule .log).schedule .wsPing).statsConnect now

/-- `EstablishConnection` from its `try` block on. -/
def establishConnection (h : Locked) (o : Outcome) : Locked :=
  let replaced := { h with client := { h.client with handlers := {} } }
  match o.connecting with
  | .contextThrows => h
  | .socketThrows => h.schedule .reconnect
  | .optionThrows | .notSent => replaced.schedule .reconnect
  | .sent fd n =>
    let h := (connect replaced o.now).addClientFd fd
    let h := { h with client := { h.client with handlers := .first n } }
    if 3 ≤ n then { h with client := { h.client with connected := true } }
    else h.schedule .reconnect

/-! ## The timers -/

/-- `State`, `HealthCheck` and `WSPing`, which repeat, and `Log`, which does not. -/
def timer (h : Locked) (t : Task) (o : Outcome) : Locked :=
  if h.client.connected then
    if o.sent then (if t = .log then h else h.schedule t) else disconnect h o.closing
  else h

end OWLSClientEvents

def Task.run (t : Task) (h : Locked) (o : Outcome) : Locked :=
  match t with
  | .establishConnection => OWLSClientEvents.establishConnection h o
  | .reconnect => OWLSClientEvents.reconnect h
  | .state | .healthCheck | .log | .wsPing => OWLSClientEvents.timer h t o

/-! ## The commands -/

namespace OWLSclient

/-- `DoConfigure`, `DoLEDs` and `UnSupportedCommand`: an answer that is lost disconnects. -/
def answer (h : Locked) (o : Outcome) : Locked :=
  if o.sent then h else OWLSClientEvents.disconnect h o.closing

/-- `DoReboot`, `DoUpgrade` and `DoFactory` up to their sleep. `continues`: nothing throws
between the disconnection and the sleep. -/
def restart (h : Locked) (command : Command) (continues : Bool) (o : Outcome) : Locked :=
  if o.sent then
    match OWLSclient.disconnect h o.closing with
    | (h, true) =>
      if continues then { h with client := { h.client with sleeping := some command } } else h
    | (h, false) => h
  else OWLSClientEvents.disconnect h o.closing

def doConfigure (h : Locked) (r : CommandRequest) (o : Outcome) : Locked :=
  if r.legal then answer h o else h

def doLEDs (h : Locked) (r : CommandRequest) (o : Outcome) : Locked :=
  if r.legal then answer h o else h

def doReboot (h : Locked) (r : CommandRequest) (o : Outcome) : Locked :=
  if r.legal then restart h .reboot true o else h

/-- `GetFirmware` parses the URI after the client is disconnected. -/
def doUpgrade (h : Locked) (r : CommandRequest) (o : Outcome) : Locked :=
  if r.legal then restart h .upgrade r.uriParses o else h

def doFactory (h : Locked) (r : CommandRequest) (o : Outcome) : Locked :=
  if r.legal then restart h .factory true o else h

def unSupportedCommand (h : Locked) (o : Outcome) : Locked := answer h o

/-- What `DoReboot`, `DoUpgrade` and `DoFactory` do after their sleep. -/
def wake (h : Locked) (o : Outcome) : Locked :=
  OWLSClientEvents.disconnect { h with client := { h.client with sleeping := none } } o.closing

end OWLSclient

def CommandRequest.run (r : CommandRequest) (h : Locked) (o : Outcome) : Locked :=
  match r.command with
  | .configure => OWLSclient.doConfigure h r o
  | .reboot => OWLSclient.doReboot h r o
  | .upgrade => OWLSclient.doUpgrade h r o
  | .factory => OWLSclient.doFactory h r o
  | .leds => OWLSclient.doLEDs h r o

/-! ## The socket callbacks -/

namespace SimulationRunner

/-- The rest of `OnSocketError` and `OnSocketShutdown`. `Reconnect` takes the mutex again. -/
def onSocketClosed (h : Locked) (o : Outcome) : Locked :=
  match OWLSclient.disconnect h o.closing with
  | (h, true) => h.spawn .reconnecting
  | (h, false) => h

/-- The rest of `OnSocketReadable`, with `ProcessCommand`. -/
def onSocketReadable (h : Locked) (o : Outcome) : Locked :=
  match o.frame with
  | .quiet => h
  | .failed => OWLSClientEvents.disconnect h o.closing
  | .command r => h.spawn (.command r)
  | .unsupported => OWLSclient.unSupportedCommand h o

end SimulationRunner

def Waiting.run (w : Waiting) (h : Locked) (o : Outcome) : Locked :=
  match w with
  | .disconnecting => SimulationRunner.onSocketClosed h o
  | .reconnecting => OWLSClientEvents.reconnect h
  | .reading => SimulationRunner.onSocketReadable h o
  | .command r => r.run h o

/-! ## One body -/

/-- What gets the mutex of a client: one of its tasks, one of the threads that wait for it, or
the command that sleeps with it. -/
inductive Work where
  | task (i : Nat)
  | waiting (i : Nat)
  | wake
deriving DecidableEq

/-- The context of `EstablishConnection` is built before it takes the mutex. -/
def Locked.perform (h : Locked) (work : Work) (o : Outcome) : Option Locked :=
  match work with
  | .task i => do
    let t ← h.client.tasks[i]?
    let h := { h with client := { h.client with tasks := h.client.tasks.eraseIdx i } }
    if t = .establishConnection ∧ o.connecting = .contextThrows then some h
    else if h.client.sleeping.isSome then none
    else some (t.run h o)
  | .waiting i => do
    let w ← h.client.waiting[i]?
    if h.client.sleeping.isSome then none
    else
      some (w.run { h with client := { h.client with waiting := h.client.waiting.eraseIdx i } } o)
  | .wake => if h.client.sleeping.isSome then some (OWLSclient.wake h o) else none

/-! ## What the bodies leave of a client -/

/-- `OWLSclient::Disconnect` returns: it has nothing to close, or closes it. -/
def Client.closes (c : Client) (closing : Closing) : Bool :=
  !c.connected || closing = .done

/-- A client after `OWLSclient::Disconnect`. -/
def Client.disconnected (c : Client) (closing : Closing) : Client :=
  { c with
    fd := none
    connected := c.connected && closing ≠ .done
    handlers := if c.connected then c.handlers.without closing.removed else c.handlers }

def Client.schedule (c : Client) (t : Task) : Client := { c with tasks := c.tasks ++ [t] }

/-- A client after `OWLSClientEvents::Disconnect`. -/
def Client.reconnecting (c : Client) (closing : Closing) : Client :=
  if c.closes closing then (c.disconnected closing).schedule .establishConnection
  else c.disconnected closing

section

variable (h : Locked) (c : Closing) (o : Outcome)

theorem disconnect_eq : OWLSclient.disconnect h c =
    (⟨h.index, h.client.disconnected c, h.removeClientFd.statsDisconnect.shared⟩,
      h.client.closes c) := by
  obtain ⟨index, ⟨connected, fd, handlers, tasks, waiting, sleeping⟩, shared⟩ := h
  cases fd <;> cases connected <;> cases c <;> rfl

theorem reconnecting_eq : OWLSClientEvents.disconnect h c =
    ⟨h.index, h.client.reconnecting c, h.removeClientFd.statsDisconnect.shared⟩ := by
  unfold OWLSClientEvents.disconnect Client.reconnecting
  rw [disconnect_eq]
  cases h.client.closes c <;> rfl

end

end Owls
