import Owls.Base.Word
import Owls.Runner

/-!
# The live devices

`SimStats` counts the connections of a running simulation, and each client knows whether it is
connected. A body changes both, not always together.
-/

open Machine

namespace Owls

inductive Change where
  | none
  /-- `SimStats::Connect`; `Connected_` is set when the connection is complete. -/
  | connect (complete : Bool)
  /-- `SimStats::Disconnect`; `Connected_` is cleared when the socket closes. -/
  | disconnect (closing : Closing)
  /-- `Reconnect`, which clears `Connected_` alone. -/
  | clear

namespace Change

def connected (b : Bool) : Change → Bool
  | .none => b
  | .connect complete => complete || b
  | .disconnect closing => b && closing ≠ .done
  | .clear => false

def stats (s : Shared) (now : UInt64) : Change → SimStats.Statuses
  | .none | .clear => s.stats
  | .connect _ => SimStats.connect s.master now s.stats s.runningId
  | .disconnect _ => SimStats.disconnect s.stats s.runningId

/-- The change moves both alike, on a client with this `Connected_` among so many connected
ones. The counter stays at zero when it is decreased there. -/
def Sound (connected : Bool) (clients : Nat) : Change → Prop
  | .none => True
  | .connect complete => connected = false ∧ complete = true
  | .disconnect closing => if connected then closing = .done else clients = 0
  | .clear => connected = false

end Change

/-! ## The change of each body -/

def lostChange (o : Outcome) : Change := if o.sent then .none else .disconnect o.closing

def Task.change (c : Client) (o : Outcome) : Task → Change
  | .establishConnection =>
    match o.connecting with
    | .sent _ n => .connect (3 ≤ n)
    | .contextThrows | .socketThrows | .optionThrows | .notSent => .none
  | .reconnect => .clear
  | .state | .healthCheck | .log | .wsPing => if c.connected then lostChange o else .none

def CommandRequest.change (r : CommandRequest) (o : Outcome) : Change :=
  if r.restarts then .disconnect o.closing
  else if r.legal then lostChange o
  else .none

def Waiting.change (o : Outcome) : Waiting → Change
  | .disconnecting => .disconnect o.closing
  | .reconnecting => .clear
  | .reading =>
    match o.frame with
    | .failed => .disconnect o.closing
    | .unsupported => lostChange o
    | .quiet | .command _ => .none
  | .command r => r.change o

def Client.change (c : Client) (o : Outcome) : Work → Change
  | .task i => (c.tasks[i]?).elim .none (Task.change c o)
  | .waiting i => (c.waiting[i]?).elim .none (Waiting.change o)
  | .wake => .disconnect o.closing

/-! ## A body makes its change -/

/-- The descriptor of the socket, once the connect message is sent. -/
def Connecting.socket : Connecting → Int
  | .sent fd _ => fd
  | .contextThrows | .socketThrows | .optionThrows | .notSent => -1

namespace Change

def fd (socket : Int) (fd : Option Int) : Change → Option Int
  | .none | .clear => fd
  | .connect _ => some socket
  | .disconnect _ => Option.none

def shared (h : Locked) (o : Outcome) : Change → Shared
  | .none | .clear => h.shared
  | .connect _ => ((h.statsConnect o.now).addClientFd o.connecting.socket).shared
  | .disconnect _ => h.removeClientFd.statsDisconnect.shared

structure Made (ch : Change) (h : Locked) (o : Outcome) (h' : Locked) : Prop where
  connected : h'.client.connected = ch.connected h.client.connected
  fd : h'.client.fd = ch.fd o.connecting.socket h.client.fd
  shared : h'.shared = ch.shared h o

end Change

open Change (Made)

variable {o : Outcome} {h h' : Locked}

theorem Change.Made.of_client {ch : Change} {c : Client} (hm : ch.Made { h with client := c } o h')
    (hconnected : c.connected = h.client.connected) (hfd : c.fd = h.client.fd) : ch.Made h o h' where
  connected := hm.connected.trans (congrArg ch.connected hconnected)
  fd := hm.fd.trans (congrArg (ch.fd o.connecting.socket) hfd)
  shared := by
    rw [hm.shared]
    cases ch with
    | none | clear | connect => rfl
    | disconnect closing =>
      simp only [Change.shared, Locked.removeClientFd, hfd]
      split <;> rfl

theorem made_none : Change.none.Made h o h := ⟨rfl, rfl, rfl⟩

theorem made_reconnecting : (Change.disconnect o.closing).Made h o
    (OWLSClientEvents.disconnect h o.closing) := by
  rw [reconnecting_eq]
  unfold Client.reconnecting
  split <;> exact ⟨rfl, rfl, rfl⟩

theorem made_lost {h' : Locked} (hsent : o.sent = true → Change.none.Made h o h')
    (hlost : o.sent = false → h' = OWLSClientEvents.disconnect h o.closing) :
    (lostChange o).Made h o h' := by
  unfold lostChange
  split
  · rename_i hs
    exact hsent hs
  · rename_i hs
    rw [hlost (Bool.not_eq_true _ ▸ hs)]
    exact made_reconnecting

theorem made_answer : (lostChange o).Made h o (OWLSclient.answer h o) := by
  unfold OWLSclient.answer
  exact made_lost (fun hs => by rw [if_pos hs]; exact made_none) fun hs => by simp [hs]

theorem made_restart (command : Command) (continues : Bool) :
    (Change.disconnect o.closing).Made h o (OWLSclient.restart h command continues o) := by
  unfold OWLSclient.restart
  split
  · rw [disconnect_eq]
    cases h.client.closes o.closing <;> cases continues <;> exact ⟨rfl, rfl, rfl⟩
  · exact made_reconnecting

theorem made_timer {t : Task} :
    (if h.client.connected then lostChange o else Change.none).Made h o
      (OWLSClientEvents.timer h t o) := by
  unfold OWLSClientEvents.timer
  split
  · refine made_lost (fun hs => ?_) fun hs => by simp [hs]
    rw [if_pos hs]
    split <;> exact ⟨rfl, rfl, rfl⟩
  · exact made_none

theorem made_runTask (t : Task) : (t.change h.client o).Made h o (t.run h o) := by
  cases t with
  | establishConnection =>
    simp only [Task.run, Task.change, OWLSClientEvents.establishConnection]
    cases hconnecting : o.connecting with
    | contextThrows | socketThrows | optionThrows | notSent => exact ⟨rfl, rfl, rfl⟩
    | sent fd n =>
      have hsocket : o.connecting.socket = fd := by rw [hconnecting]; rfl
      simp only
      split
      · rename_i hn
        exact ⟨by simp [Change.connected, hn], by rw [hsocket]; rfl,
          by rw [Change.shared, hsocket]; rfl⟩
      · rename_i hn
        refine ⟨?_, by rw [hsocket]; rfl, by rw [Change.shared, hsocket]; rfl⟩
        simp [Change.connected, hn, Locked.schedule, Locked.addClientFd, OWLSClientEvents.connect,
          Locked.statsConnect]
  | reconnect => exact ⟨rfl, rfl, rfl⟩
  | state | healthCheck | log | wsPing => exact made_timer

theorem made_command (r : CommandRequest) : (r.change o).Made h o (r.run h o) := by
  obtain ⟨command, legal, uriParses⟩ := r
  cases legal with
  | false => cases command <;> exact made_none
  | true =>
    cases command with
    | configure | leds => exact made_answer
    | reboot | upgrade | factory => exact made_restart _ _

theorem made_runWaiting (w : Waiting) : (w.change o).Made h o (w.run h o) := by
  cases w with
  | disconnecting =>
    simp only [Waiting.run, SimulationRunner.onSocketClosed, Waiting.change]
    rw [disconnect_eq]
    cases h.client.closes o.closing <;> exact ⟨rfl, rfl, rfl⟩
  | reconnecting => exact ⟨rfl, rfl, rfl⟩
  | reading =>
    simp only [Waiting.run, SimulationRunner.onSocketReadable, Waiting.change]
    cases o.frame with
    | quiet | command => exact ⟨rfl, rfl, rfl⟩
    | failed => exact made_reconnecting
    | unsupported => exact made_answer
  | command r => exact made_command r

theorem made_of_perform {work : Work} (hp : h.perform work o = some h') :
    (h.client.change o work).Made h o h' := by
  cases work with
  | task i =>
    simp only [Locked.perform, Option.bind_eq_bind, Option.bind_eq_some_iff] at hp
    obtain ⟨t, ht, hp⟩ := hp
    simp only [Client.change, ht, Option.elim_some]
    split at hp
    · rename_i hlost
      cases hp
      obtain ⟨rfl, hthrows⟩ := hlost
      simp only [Task.change, hthrows]
      exact ⟨rfl, rfl, rfl⟩
    · split at hp
      · cases hp
      · cases hp
        have hmade := made_runTask (h := { h with client := h.client.takeTask i }) (o := o) t
        exact hmade.of_client rfl rfl
  | waiting i =>
    simp only [Locked.perform, Option.bind_eq_bind, Option.bind_eq_some_iff] at hp
    obtain ⟨w, hw, hp⟩ := hp
    simp only [Client.change, hw, Option.elim_some]
    split at hp
    · cases hp
    · cases hp
      exact (made_runWaiting w).of_client rfl rfl
  | wake =>
    simp only [Locked.perform] at hp
    split at hp
    · cases hp
      exact made_reconnecting.of_client rfl rfl
    · cases hp

/-! ## The counter -/

def Counts (s : Shared) (now : UInt64) (ch : Change) (s' : Shared) : Prop :=
  s'.runningId = s.runningId ∧ s'.stats = ch.stats s now

theorem Change.Made.counts {ch : Change} (hm : ch.Made h o h') :
    Counts h.shared o.now ch h'.shared := by
  rw [hm.shared]
  cases ch with
  | none | clear | connect => exact ⟨rfl, rfl⟩
  | disconnect closing =>
    simp only [Change.shared]
    unfold Locked.removeClientFd
    split <;> exact ⟨rfl, rfl⟩

/-! ## One step -/

theorem change_sound_iff {s : Shared} {now : UInt64} {b : Bool} {n n' : Nat} {ch : Change}
    (hsome : (s.stats[s.runningId]?).isSome)
    (hlive : (SimStats.liveDevices s.stats s.runningId).toNat = n)
    (hb : b.toNat ≤ n) (hn : n' + b.toNat = n + (ch.connected b).toNat) (hlt : n' < 2 ^ 64) :
    (SimStats.liveDevices (ch.stats s now) s.runningId).toNat = n' ↔ ch.Sound b n := by
  cases ch with
  | none =>
    have hsame : n' = n := Nat.add_right_cancel hn
    exact iff_of_true (hlive.trans hsame.symm) trivial
  | clear =>
    cases b <;> simp [Change.stats, Change.connected, Change.Sound] at hn ⊢ <;> omega
  | connect complete =>
    have hcount := congrArg UInt64.toNat
      (SimStats.liveDevices_connect s.master now hsome)
    rw [UInt64.toNat_add, hlive] at hcount
    simp only [Change.stats, hcount, Change.Sound]
    cases b <;> cases complete <;> simp [Change.connected] at hn ⊢ <;> omega
  | disconnect closing =>
    have hcount : (SimStats.liveDevices (SimStats.disconnect s.stats s.runningId)
        s.runningId).toNat = _ := SimStats.liveDevices_disconnect
    rw [hlive] at hcount
    simp only [Change.stats, hcount, Change.Sound]
    cases b with
    | false =>
      simp [Change.connected] at hn ⊢
      omega
    | true =>
      by_cases hdone : closing = .done
      · simp [Change.connected, hdone] at hn hb ⊢
        omega
      · simp [Change.connected, hdone] at hn hb ⊢
        omega

namespace Runner

def connectedClients (r : Runner) : Nat := r.clients.countP Client.connected

/-- Slot 0 of the running simulation counts the connected clients. -/
def LiveExact (r : Runner) : Prop :=
  (SimStats.liveDevices r.shared.stats r.shared.runningId).toNat = connectedClients r

instance (r : Runner) : Decidable (LiveExact r) :=
  inferInstanceAs (Decidable (UInt64.toNat _ = _))

def MovesBoth (r : Runner) : Event → Prop
  | .body c work o => ∀ client, r.clients[c]? = some client →
    (client.change o work).Sound client.connected (connectedClients r)
  | _ => True

structure Counted (r : Runner) : Prop where
  known : (r.shared.stats[r.shared.runningId]?).isSome
  room : r.clients.length ≤ r.devices.toNat

variable {r u : Runner} {e : Event}

theorem countP_set_add {l : List Client} {i : Nat} {x : Client} (p : Client → Bool)
    (hx : l[i]? = some x) (y : Client) :
    (l.set i y).countP p + (p x).toNat = l.countP p + (p y).toNat := by
  obtain ⟨hi, rfl⟩ := List.getElem?_eq_some_iff.mp hx
  have hle : (p l[i]).toNat ≤ l.countP p := by
    cases hp : p l[i] with
    | false => exact Nat.zero_le _
    | true => exact List.countP_pos_iff.mpr ⟨l[i], List.getElem_mem hi, hp⟩
  have hnat : ∀ b : Bool, (if b = true then 1 else 0) = b.toNat := by decide
  rw [List.countP_set hi, hnat, hnat]
  omega

theorem known_stats (s : Shared) (now : UInt64) (ch : Change) :
    ((ch.stats s now)[s.runningId]?).isSome = (s.stats[s.runningId]?).isSome := by
  cases ch with
  | none | clear => rfl
  | connect => exact SimStats.isSome_connect s.master now
  | disconnect => exact SimStats.isSome_disconnect

theorem counted_launch (l : Launch) : Counted l.runner where
  known := by simp [Launch.runner, SimStats.startSim]
  room := Nat.zero_le _

theorem step_counted (h : Counted r) (hstep : step r e = some u) : Counted u := by
  cases stepped_of_step hstep with
  | create hroom => exact ⟨h.known, by simpa using Nat.succ_le_of_lt hroom⟩
  | unknown => exact h
  | callback hc => exact ⟨h.known, by simpa using h.room⟩
  | body hc hp =>
    obtain ⟨hid, hstats⟩ := (made_of_perform hp).counts
    refine ⟨?_, by simpa using h.room⟩
    simp only [hid, hstats, known_stats]
    exact h.known

theorem liveExact_launch (l : Launch) : LiveExact l.runner := by
  simp [LiveExact, connectedClients, Launch.runner, SimStats.startSim, SimStats.liveDevices]

theorem liveExact_iff (hJ : Counted r) (h : LiveExact r) (hstep : step r e = some u) :
    LiveExact u ↔ MovesBoth r e := by
  cases stepped_of_step hstep with
  | create hroom =>
    refine iff_of_true ?_ trivial
    simp only [LiveExact, connectedClients, List.countP_append] at h ⊢
    exact h
  | unknown => exact iff_of_true h trivial
  | callback hc =>
    refine iff_of_true ?_ trivial
    rename_i readable c client
    have hset := countP_set_add Client.connected hc (call client readable)
    simp only [LiveExact, connectedClients] at h ⊢
    rw [h]
    exact (Nat.add_right_cancel hset).symm
  | @body c work o client h' hc hp =>
    have hmade := made_of_perform hp
    obtain ⟨hid, hstats⟩ := hmade.counts
    have hset := countP_set_add Client.connected hc h'.client
    rw [hmade.connected] at hset
    have hle : client.connected.toNat ≤ connectedClients r := by
      cases hon : client.connected with
      | false => exact Nat.zero_le _
      | true => exact List.countP_pos_iff.mpr ⟨client, List.mem_of_getElem? hc, hon⟩
    have hlt : (r.clients.set c h'.client).countP Client.connected < 2 ^ 64 := by
      refine Nat.lt_of_le_of_lt List.countP_le_length ?_
      rw [List.length_set]
      exact Nat.lt_of_le_of_lt hJ.room r.devices.toNat_lt
    simp only [LiveExact, connectedClients, hid, hstats]
    rw [change_sound_iff hJ.known h hle hset hlt]
    constructor
    · intro hs client' hc'
      cases hc.symm.trans hc'
      exact hs
    · intro hG
      exact hG client hc

/-- The live devices are the connected clients throughout exactly the runs whose bodies move both
alike. -/
theorem live_exact_iff (l : Launch) (es : List Event) :
    Always step LiveExact l.runner es ↔ Steps step MovesBoth l.runner es :=
  always_iff_steps (J := Counted) (I := LiveExact)
    (counted_launch l) (liveExact_launch l)
    (fun _ _ _ h he => step_counted h he) (fun _ h => h)
    (fun _ _ _ hJ h hG he => (liveExact_iff hJ h he).mpr hG)
    (fun _ _ _ hJ h he hu => (liveExact_iff hJ h he).mp hu) es

/-- Two connected clients, one of which reboots. -/
def rebootOne : List Event :=
  [.create, .create,
   .body 0 (.task 0) { connecting := .sent 7 3 }, .body 1 (.task 0) { connecting := .sent 8 3 },
   .callback 7 true, .body 0 (.waiting 0) { frame := .command { command := .reboot } },
   .body 0 (.waiting 0) {}, .body 0 .wake {}]

/-- The reboot is counted twice. -/
theorem reboot_counted_twice :
    ¬ ∀ (l : Launch) (es : List Event), Always step LiveExact l.runner es := by
  intro h
  have hlast := (h { devices := 2 } rebootOne).here rfl
  exact absurd hlast (by decide +kernel)

end Runner

end Owls
