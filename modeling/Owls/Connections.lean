import Owls.Runner

/-!
# The connection of a client

The tasks that lead to a connection, counted together with the connection itself.
-/

open Machine

namespace Owls.Runner

def pending (c : Client) : Nat := c.tasks.countP Task.connects

def links (c : Client) : Nat := pending c + c.connected.toNat

/-- A client whose mutex is free has one connection task pending, or is connected, or neither. -/
def SingleLink (c : Client) : Prop := c.sleeping = none → links c ≤ 1

instance (c : Client) : Decidable (SingleLink c) :=
  inferInstanceAs (Decidable (c.sleeping = none → links c ≤ 1))

def schedules (c : Client) (o : Outcome) : Waiting → Bool
  | .disconnecting => false
  | .reconnecting => true
  | .reading =>
    match o.frame with
    | .failed => c.closes o.closing
    | .unsupported => !o.sent && c.closes o.closing
    | .quiet | .command _ => false
  | .command r => r.legal && (!o.sent && c.closes o.closing)

/-- A thread that schedules a connection, and a command that wakes to do so, finds no connection
task of its client pending. -/
def FirstToSchedule (r : Runner) : Event → Prop
  | .body c (.waiting i) o => ∀ client w, r.clients[c]? = some client →
    client.waiting[i]? = some w → schedules client o w = true → pending client = 0
  | .body c .wake _ => ∀ client, r.clients[c]? = some client → pending client = 0
  | _ => True

variable {c c' : Client} {o : Outcome} {t : Task}

/-! ## One body -/

theorem links_disconnected (closing : Closing) : links (c.disconnected closing) ≤ links c := by
  simp only [links, pending, Client.disconnected]
  cases c.connected
  · simp
  · simp [Bool.toNat_le]

theorem links_reconnecting (closing : Closing) :
    links (c.reconnecting closing) =
      if c.closes closing then pending c + 1 else links c := by
  unfold Client.reconnecting
  split
  · rename_i hcloses
    have hoff := connected_disconnected hcloses
    simp only [links, pending, Client.schedule, hoff]
    simp [Client.disconnected, Task.connects]
  · rename_i hcloses
    simp only [Client.closes, Bool.or_eq_true, not_or, Bool.not_eq_true', Bool.not_eq_false,
      decide_eq_true_eq] at hcloses
    simp [links, pending, Client.disconnected, hcloses]

theorem links_reconnect : links c.reconnect = pending c + 1 := by
  simp [links, pending, Client.reconnect, Client.schedule, Task.connects]

theorem pending_le_links : pending c ≤ links c := Nat.le_add_right _ _

theorem links_establish (a : Connecting) : links (c.establish a) ≤ links c + 1 := by
  cases a with
  | contextThrows => exact Nat.le_succ _
  | socketThrows | optionThrows | notSent =>
    simp [links, pending, Client.establish, Client.schedule, Task.connects]
    omega
  | sent fd n =>
    have hnone : [Task.state, .healthCheck, .log, .wsPing].countP Task.connects = 0 := by decide
    simp only [Client.establish]
    split
    · simp [links, pending, hnone]
    · simp [links, pending, Client.schedule, Task.connects]
      omega

theorem links_timer (ht : t.connects = false) : links (c.timer t o) ≤ links c := by
  unfold Client.timer
  split
  · rename_i hconnected
    split
    · split
      · exact le_rfl
      · simp [links, pending, Client.schedule, ht]
    · rw [links_reconnecting]
      split
      · simp [links, hconnected]
      · exact le_rfl
  · exact le_rfl

theorem links_runTask (t : Task) :
    links (c.runTask t o) ≤ links c + (if t.connects then 1 else 0) := by
  cases t with
  | establishConnection => exact links_establish o.connecting
  | reconnect =>
    rw [Client.runTask, links_reconnect]
    exact Nat.succ_le_succ pending_le_links
  | state | healthCheck | log | wsPing => exact links_timer rfl

theorem links_takeTask {i : Nat} (ht : c.tasks[i]? = some t) :
    links (c.takeTask i) + (if t.connects then 1 else 0) = links c := by
  have hcount := countP_takeTask Task.connects ht
  simp only [links, pending]
  rw [← hcount]
  simp only [Client.takeTask]
  omega

theorem links_answer :
    links (c.answer o) = if !o.sent && c.closes o.closing then pending c + 1 else links c := by
  unfold Client.answer
  split
  · rename_i hsent
    simp [hsent]
  · rename_i hsent
    rw [links_reconnecting]
    simp [hsent]

theorem links_restart (command : Command) (continues : Bool) :
    links (c.restart command continues o) ≤
      if !o.sent && c.closes o.closing then pending c + 1 else links c := by
  unfold Client.restart
  split
  · rename_i hsent
    simp only [hsent, Bool.not_true, Bool.false_and, Bool.false_eq_true, if_false]
    split
    · exact links_disconnected (c := c) o.closing
    · exact links_disconnected o.closing
  · rename_i hsent
    rw [links_reconnecting]
    simp [hsent]

theorem links_runWaiting (w : Waiting) :
    links (c.runWaiting w o) ≤ if schedules c o w then pending c + 1 else links c := by
  cases w with
  | disconnecting =>
    simp only [Client.runWaiting, schedules, Bool.false_eq_true, if_false]
    split
    · exact links_disconnected (c := c) o.closing
    · exact links_disconnected o.closing
  | reconnecting => exact links_reconnect.le
  | reading =>
    cases hframe : o.frame with
    | quiet | command =>
      simp only [Client.runWaiting, schedules, hframe, Bool.false_eq_true, if_false]
      exact le_rfl
    | failed =>
      simp only [Client.runWaiting, schedules, hframe]
      exact (links_reconnecting o.closing).le
    | unsupported =>
      simp only [Client.runWaiting, schedules, hframe]
      exact links_answer.le
  | command r =>
    simp only [Client.runWaiting, Client.runCommand, schedules]
    split
    · rename_i hrestarts
      have hlegal := legal_of_restarts hrestarts
      simpa [hlegal] using links_restart (c := c) (o := o) r.command r.continues
    · split
      · rename_i hlegal
        simp [hlegal, links_answer]
      · rename_i hlegal
        simp [hlegal]

theorem links_of_schedules {w : Waiting} (h : schedules c o w = true) :
    links (c.runWaiting w o) = pending c + 1 ∧ (c.runWaiting w o).sleeping = c.sleeping := by
  cases w with
  | disconnecting => cases h
  | reconnecting => exact ⟨links_reconnect, rfl⟩
  | reading =>
    cases hframe : o.frame with
    | quiet | command => simp [schedules, hframe] at h
    | failed =>
      simp only [schedules, hframe] at h
      simp only [Client.runWaiting, hframe, links_reconnecting, h, if_true, sleeping_reconnecting,
        and_self]
    | unsupported =>
      simp only [schedules, hframe] at h
      simp only [Client.runWaiting, hframe, links_answer, h, if_true, sleeping_answer, and_self]
  | command r =>
    simp only [schedules, Bool.and_eq_true, Bool.not_eq_true'] at h
    obtain ⟨hlegal, hsent, hcloses⟩ := h
    simp only [Client.runWaiting, Client.runCommand, Client.restart, Client.answer, hlegal, hsent,
      Bool.false_eq_true, if_false, if_true, ite_self, links_reconnecting, hcloses,
      sleeping_reconnecting, and_self]

/-! ## Runs -/

theorem links_of_performs {work : Work} (h : c.Performs o work c') (hc : links c ≤ 1)
    (hwaiting : ∀ i w, work = .waiting i → c.waiting[i]? = some w → schedules c o w = true →
      pending c = 0)
    (hwake : work = .wake → pending c = 0) : links c' ≤ 1 := by
  cases h with
  | lost ht ho =>
    have hlinks := links_takeTask ht
    omega
  | task ht hfree ho =>
    rename_i i t
    have hlinks := links_takeTask ht
    have hrun : links ((c.takeTask i).runTask t o) ≤ _ := links_runTask t
    omega
  | waiting hw hfree =>
    refine (links_runWaiting _).trans ?_
    split
    · rename_i hschedules
      have hnone := hwaiting _ _ rfl hw hschedules
      exact (Nat.succ_le_succ hnone.le)
    · exact hc
  | wake hheld =>
    have hnone := hwake rfl
    rw [Client.wake, links_reconnecting]
    split
    · exact Nat.succ_le_succ hnone.le
    · exact hc

theorem links_wake (hoff : c.connected = false) : links (c.wake o) = pending c + 1 := by
  rw [Client.wake, links_reconnecting]
  simp [Client.closes, hoff, pending]

def LinksHold (r : Runner) : Prop := ∀ c ∈ r.clients, links c ≤ 1

theorem step_links {r u : Runner} {e : Event} (h : LinksHold r) (hG : FirstToSchedule r e)
    (hstep : step r e = some u) : LinksHold u := by
  refine forall_of_stepped (stepped_of_step hstep) h (by decide) (fun _ _ hc => hc) ?_
  rintro c work o client client' rfl hc hp hclient
  refine links_of_performs hp hclient ?_ ?_
  · rintro i w rfl hw hschedules
    exact hG client w hc hw hschedules
  · rintro rfl
    exact hG client hc

theorem firstToSchedule_of_step {r u : Runner} {e : Event} (hJ : ∀ c ∈ r.clients, SleepsOff c)
    (hstep : step r e = some u) (hu : ∀ c ∈ u.clients, SingleLink c) : FirstToSchedule r e := by
  cases e with
  | create | callback => trivial
  | body c work o =>
    cases work with
    | task => trivial
    | waiting i =>
      intro client w hc hw hschedules
      obtain ⟨client', hp, hmem⟩ := mem_of_body hc hstep
      cases hp with
      | waiting hw' hfree =>
        cases hw.symm.trans hw'
        obtain ⟨hlinks, hsleep⟩ := links_of_schedules (c := client.takeWaiting i) hschedules
        have hle := hu _ hmem (hsleep.trans hfree)
        have hsame : pending (client.takeWaiting i) = pending client := rfl
        omega
    | wake =>
      intro client hc
      obtain ⟨client', hp, hmem⟩ := mem_of_body hc hstep
      cases hp with
      | wake hheld =>
        have hlinks := links_wake (o := o) (hJ client (List.mem_of_getElem? hc) hheld)
        have hle := hu _ hmem (sleeping_reconnecting o.closing)
        omega

/-- A client has one connection task pending, or is connected, or neither, in exactly the runs in
which every thread that schedules a connection finds no connection task pending. -/
theorem single_link_iff (l : Launch) (es : List Event) :
    Always step (fun r => ∀ c ∈ r.clients, SingleLink c) l.runner es ↔
      Steps step FirstToSchedule l.runner es :=
  always_iff_steps (J := fun r => ∀ c ∈ r.clients, SleepsOff c) (I := LinksHold)
    (forall_launch l) (forall_launch l)
    (fun _ _ _ h he => step_sleepsOff h he) (fun _ h c hc _ => h c hc)
    (fun _ _ _ _ h hG he => step_links h hG he)
    (fun _ _ _ hJ _ he hu => firstToSchedule_of_step hJ he hu) es

/-- Two reboots, the second of which gets the mutex after the first. -/
def rebootTwice : List Event :=
  let reboot : Frame := .command { command := .reboot }
  [.create, .body 0 (.task 0) { connecting := .sent 7 3 },
   .callback 7 true, .body 0 (.waiting 0) { frame := reboot },
   .callback 7 true, .body 0 (.waiting 1) { frame := reboot },
   .body 0 (.waiting 0) {}, .body 0 .wake {}, .body 0 (.waiting 0) { sent := false }]

/-- Each of the two schedules a connection. -/
theorem connections_doubled :
    ¬ ∀ (l : Launch) (es : List Event),
      Always step (fun r => ∀ c ∈ r.clients, SingleLink c) l.runner es := by
  intro h
  have hlast := (h { devices := 1 } rebootTwice).here rfl
  exact absurd hlast (by decide)

end Owls.Runner
