import Owls.Runner

/-!
# No client is left alone

A client that is neither connected, nor on its way to a connection, stays so for good: nothing in
the runner looks for it.
-/

open Machine

namespace Owls.Runner

/-- The thread will schedule a connection, or sleep and then do so, when it gets the mutex of a
client that it can disconnect. -/
def willSchedule : Waiting → Bool
  | .reconnecting => true
  | .command r => r.restarts && r.continues
  | .disconnecting | .reading => false

def onItsWay (c : Client) : Bool :=
  c.tasks.any Task.connects || c.waiting.any willSchedule || c.sleeping.isSome

def attended (c : Client) : Bool := (c.connected && c.handlers = .all) || onItsWay c

/-- `OWLSclient::Disconnect` fails before it has removed anything. -/
def linkSurvives (c : Client) (closing : Closing) : Bool :=
  c.connected && c.handlers = .all && closing = .removeThrows 0

/-- The thread gives up: it disconnects the client, or fails to, and schedules nothing. -/
def givesUp (c : Client) (o : Outcome) : Waiting → Bool
  | .disconnecting => !c.closes o.closing
  | .reconnecting => false
  | .reading =>
    match o.frame with
    | .failed => !c.closes o.closing
    | .unsupported => !o.sent && !c.closes o.closing
    | .quiet | .command _ => false
  | .command r =>
    if r.restarts && o.sent then !(c.closes o.closing && r.continues)
    else r.legal && (!o.sent && !c.closes o.closing)

/-- What a body must find of its client, besides the task or thread that it is itself. A
connection whose context throws: an attended client. A timer or a thread that gives up: a client
that is on its way in another manner, or that keeps its connection. -/
def SomethingLeft (c : Client) (o : Outcome) : Work → Prop
  | .task i =>
    (c.tasks[i]? = some .establishConnection → o.connecting = .contextThrows →
      attended (c.takeTask i) = true) ∧
    (∀ t, c.tasks[i]? = some t → t.connects = false →
      (c.connected && !o.sent && !c.closes o.closing) = true →
        onItsWay (c.takeTask i) = true ∨ linkSurvives c o.closing = true)
  | .waiting i => ∀ w, c.waiting[i]? = some w → givesUp c o w = true →
    onItsWay (c.takeWaiting i) = true ∨ linkSurvives c o.closing = true
  | .wake => True

variable {c c' : Client} {o : Outcome} {t : Task} {w : Waiting} {i : Nat}

/-! ## One body -/

theorem handlers_without {h : Handlers} {closing : Closing} (hne : closing ≠ .done) :
    h.without closing.removed = .all ↔ h = .all ∧ closing = .removeThrows 0 := by
  obtain ⟨readable, error, shutdown⟩ := h
  cases closing with
  | done => exact absurd rfl hne
  | closeThrows => simp [Handlers.without, Handlers.all, Handlers.first, Closing.removed]
  | removeThrows n =>
    obtain ⟨_ | _ | _ | n, hn⟩ := n
    · simp [Handlers.without, Handlers.all, Handlers.first, Closing.removed]
    · simp [Handlers.without, Handlers.all, Handlers.first, Closing.removed]
    · simp [Handlers.without, Handlers.all, Handlers.first, Closing.removed]
    · omega

theorem attended_disconnected (closing : Closing) :
    attended (c.disconnected closing) = (onItsWay c || linkSurvives c closing) := by
  have hway : onItsWay (c.disconnected closing) = onItsWay c := rfl
  rw [attended, hway, Bool.or_comm]
  congr 1
  cases hc : c.connected with
  | false => simp [Client.disconnected, linkSurvives, hc]
  | true =>
    by_cases hdone : closing = .done
    · simp [Client.disconnected, linkSurvives, hdone]
    · simp [Client.disconnected, linkSurvives, hc, hdone, handlers_without hdone]

theorem attended_schedule (ht : t.connects = true) : attended (c.schedule t) = true := by
  simp [attended, onItsWay, Client.schedule, ht]

theorem attended_reconnecting (closing : Closing) :
    attended (c.reconnecting closing) =
      (c.closes closing || (onItsWay c || linkSurvives c closing)) := by
  unfold Client.reconnecting
  split
  · rename_i hcloses
    rw [attended_schedule rfl, hcloses]
    rfl
  · rename_i hcloses
    rw [attended_disconnected, Bool.eq_false_iff.mpr hcloses]
    rfl

theorem attended_establish {a : Connecting} (ha : a ≠ .contextThrows) :
    attended (c.establish a) = true := by
  cases a with
  | contextThrows => exact absurd rfl ha
  | socketThrows | optionThrows | notSent => exact attended_schedule rfl
  | sent fd n =>
    simp only [Client.establish]
    split
    · rename_i hn
      simp [attended, Handlers.first_of_le hn]
    · exact attended_schedule rfl

theorem onItsWay_takeTask (ht : c.tasks[i]? = some t) :
    onItsWay c = (t.connects || onItsWay (c.takeTask i)) := by
  obtain ⟨hi, rfl⟩ := List.getElem?_eq_some_iff.mp ht
  have hany := (List.getElem_cons_eraseIdx_perm hi).any_eq (f := Task.connects)
  simp only [onItsWay, Client.takeTask, ← hany, List.any_cons, Bool.or_assoc]

theorem onItsWay_takeWaiting (hw : c.waiting[i]? = some w) :
    onItsWay c = (willSchedule w || onItsWay (c.takeWaiting i)) := by
  obtain ⟨hi, rfl⟩ := List.getElem?_eq_some_iff.mp hw
  have hany := (List.getElem_cons_eraseIdx_perm hi).any_eq (f := willSchedule)
  simp only [onItsWay, Client.takeWaiting, ← hany, List.any_cons]
  cases c.tasks.any Task.connects <;> simp [Bool.or_assoc]

theorem attended_takeTask (ht : c.tasks[i]? = some t) (hnot : t.connects = false) :
    attended (c.takeTask i) = attended c := by
  have hway := onItsWay_takeTask ht
  rw [hnot, Bool.false_or] at hway
  simp only [attended, hway]
  rfl

theorem attended_takeWaiting (hw : c.waiting[i]? = some w) (hnot : willSchedule w = false) :
    attended (c.takeWaiting i) = attended c := by
  have hway := onItsWay_takeWaiting hw
  rw [hnot, Bool.false_or] at hway
  simp only [attended, hway]
  rfl

theorem attended_answer (hc : attended c = true) :
    attended (c.answer o) =
      (o.sent || c.closes o.closing || (onItsWay c || linkSurvives c o.closing)) := by
  unfold Client.answer
  split
  · rename_i hsent
    rw [hc, hsent]
    rfl
  · rename_i hsent
    rw [attended_reconnecting, Bool.eq_false_iff.mpr hsent, Bool.false_or]

theorem attended_restart (command : Command) (continues : Bool) :
    attended (c.restart command continues o) =
      (c.closes o.closing && (!o.sent || continues) ||
        (onItsWay c || linkSurvives c o.closing)) := by
  unfold Client.restart
  split
  · rename_i hsent
    rw [hsent, Bool.not_true, Bool.false_or]
    split
    · rename_i hsleeps
      rw [hsleeps, Bool.true_or]
      simp [attended, onItsWay]
    · rename_i hstays
      rw [attended_disconnected, Bool.eq_false_iff.mpr hstays, Bool.false_or]
  · rename_i hsent
    rw [attended_reconnecting, Bool.eq_false_iff.mpr hsent, Bool.not_false, Bool.true_or,
      Bool.and_true]

theorem attended_timer (t : Task) (hc : attended c = true) :
    attended (c.timer t o) =
      (!(c.connected && !o.sent && !c.closes o.closing) ||
        (onItsWay c || linkSurvives c o.closing)) := by
  unfold Client.timer
  split
  · rename_i hconnected
    split
    · rename_i hsent
      rw [hsent, Bool.not_true, Bool.and_false, Bool.false_and, Bool.not_false, Bool.true_or]
      split
      · exact hc
      · simp only [attended, onItsWay, Client.schedule, List.any_append] at hc ⊢
        simp only [Bool.or_eq_true] at hc ⊢
        tauto
    · rename_i hsent
      rw [attended_reconnecting, hconnected, Bool.eq_false_iff.mpr hsent]
      simp
  · rename_i hconnected
    rw [hc, Bool.eq_false_iff.mpr hconnected]
    rfl

theorem attended_runWaiting (w : Waiting) (hc : willSchedule w = false → attended c = true) :
    attended (c.runWaiting w o) =
      (!givesUp c o w || (onItsWay c || linkSurvives c o.closing)) := by
  cases w with
  | disconnecting =>
    simp only [Client.runWaiting, givesUp, Bool.not_not]
    split
    · rename_i hcloses
      simp [attended, onItsWay, hcloses, willSchedule]
    · rename_i hcloses
      rw [attended_disconnected, Bool.eq_false_iff.mpr hcloses, Bool.false_or]
  | reconnecting => exact attended_schedule rfl
  | reading =>
    have hc := hc rfl
    cases hframe : o.frame with
    | quiet => simpa [Client.runWaiting, givesUp, hframe] using hc
    | failed => simp [Client.runWaiting, givesUp, hframe, attended_reconnecting]
    | unsupported => simp [Client.runWaiting, givesUp, hframe, attended_answer hc]
    | command r =>
      simp only [Client.runWaiting, givesUp, hframe, Bool.not_false, Bool.true_or]
      simp only [attended, onItsWay, List.any_append, Bool.or_eq_true] at hc ⊢
      tauto
  | command r =>
    simp only [Client.runWaiting, Client.runCommand, givesUp]
    by_cases hrestarts : r.restarts = true
    · have hlegal := legal_of_restarts hrestarts
      rw [if_pos hrestarts, attended_restart, hrestarts, hlegal]
      cases o.sent <;> simp
    · rw [Bool.not_eq_true] at hrestarts
      have hc := hc (by simp [willSchedule, hrestarts])
      cases hlegal : r.legal with
      | false => simp [hrestarts, hc]
      | true => simp [hrestarts, attended_answer hc]

theorem attended_iff_of_performs {work : Work} (h : c.Performs o work c')
    (hc : attended c = true) (hoff : SleepsOff c) :
    attended c' = true ↔ SomethingLeft c o work := by
  cases h with
  | lost ht ho =>
    constructor
    · intro hleft
      refine ⟨fun _ _ => hleft, fun t ht' hnot _ => ?_⟩
      cases ht.symm.trans ht'
      cases hnot
    · intro hleft
      exact hleft.1 ht ho
  | @task i t ht hfree ho =>
    cases hconnects : t.connects with
    | true =>
      -- The task schedules the next one, or connects.
      have hrun : attended ((c.takeTask i).runTask t o) = true := by
        cases t with
        | establishConnection => exact attended_establish (ho rfl)
        | reconnect => exact attended_schedule rfl
        | state | healthCheck | log | wsPing => cases hconnects
      refine iff_of_true hrun ⟨fun ht' hthrows => ?_, fun t' ht' hnot _ => ?_⟩
      · cases ht.symm.trans ht'
        exact absurd hthrows (ho rfl)
      · cases ht.symm.trans ht'
        rw [hconnects] at hnot
        cases hnot
    | false =>
      have htaken := (attended_takeTask ht hconnects).trans hc
      have hrun : (c.takeTask i).runTask t o = (c.takeTask i).timer t o := by
        cases t with
        | establishConnection | reconnect => cases hconnects
        | state | healthCheck | log | wsPing => rfl
      rw [hrun, attended_timer t htaken]
      constructor
      · intro hleft
        refine ⟨fun ht' _ => ?_, fun t' ht' _ hfails => ?_⟩
        · cases ht.symm.trans ht'
          cases hconnects
        · have hfails' : ((c.takeTask i).connected && !o.sent &&
              !(c.takeTask i).closes o.closing) = true := hfails
          rw [hfails', Bool.not_true, Bool.false_or, Bool.or_eq_true] at hleft
          exact hleft
      · rintro ⟨-, hleft⟩
        rw [Bool.or_eq_true, Bool.not_eq_true', ← Bool.not_eq_true, Bool.or_eq_true]
        exact Decidable.or_iff_not_imp_left.mpr fun hfails =>
          hleft t ht hconnects (not_not.mp hfails)
  | @waiting i w hw hfree =>
    have htaken : willSchedule w = false → attended (c.takeWaiting i) = true :=
      fun hnot => (attended_takeWaiting hw hnot).trans hc
    rw [attended_runWaiting w htaken]
    constructor
    · intro hleft w' hw' hgives
      cases hw.symm.trans hw'
      have hgives' : givesUp (c.takeWaiting i) o w = true := hgives
      rw [hgives', Bool.not_true, Bool.false_or, Bool.or_eq_true] at hleft
      exact hleft
    · intro hleft
      rw [Bool.or_eq_true, Bool.not_eq_true', ← Bool.not_eq_true, Bool.or_eq_true]
      exact Decidable.or_iff_not_imp_left.mpr fun hgives => hleft w hw (not_not.mp hgives)
  | wake hheld =>
    refine iff_of_true ?_ trivial
    rw [Client.wake, attended_reconnecting]
    simp [Client.closes, hoff hheld]

/-! ## Runs -/

def LeavesSomething (r : Runner) : Event → Prop
  | .body c work o => ∀ client, r.clients[c]? = some client → SomethingLeft client o work
  | _ => True

def AllAttended (r : Runner) : Prop := ∀ c ∈ r.clients, attended c = true

theorem attended_call (readable : Bool) (hc : attended c = true) :
    attended (call c readable) = true := by
  simp only [attended, onItsWay, call, List.any_append, Bool.or_eq_true] at hc ⊢
  tauto

theorem step_attended {r u : Runner} {e : Event} (hoff : ∀ c ∈ r.clients, SleepsOff c)
    (h : AllAttended r) (hG : LeavesSomething r e) (hstep : step r e = some u) :
    AllAttended u := by
  refine forall_of_stepped (stepped_of_step hstep) h rfl (fun _ _ => attended_call _) ?_
  rintro c work o client client' rfl hc hp hclient
  exact (attended_iff_of_performs hp hclient (hoff _ (List.mem_of_getElem? hc))).mpr
    (hG client hc)

theorem leavesSomething_of_step {r u : Runner} {e : Event} (hoff : ∀ c ∈ r.clients, SleepsOff c)
    (h : AllAttended r) (hstep : step r e = some u) (hu : AllAttended u) :
    LeavesSomething r e := by
  cases e with
  | create | callback => trivial
  | body c work o =>
    intro client hc
    obtain ⟨client', hp, hmem⟩ := mem_of_body hc hstep
    have hclient := List.mem_of_getElem? hc
    exact (attended_iff_of_performs hp (h _ hclient) (hoff _ hclient)).mp (hu _ hmem)

/-- Every client is attended throughout exactly the runs whose bodies leave something behind. -/
theorem attended_iff (l : Launch) (es : List Event) :
    Always step AllAttended l.runner es ↔ Steps step LeavesSomething l.runner es :=
  always_iff_steps (J := fun r => ∀ c ∈ r.clients, SleepsOff c) (I := AllAttended)
    (forall_launch l) (forall_launch l)
    (fun _ _ _ h he => step_sleepsOff h he) (fun _ h => h)
    (fun _ _ _ hJ h hG he => step_attended hJ h hG he)
    (fun _ _ _ hJ h he hu => leavesSomething_of_step hJ h he hu) es

/-- The first connection of a client fails to load its certificate, and is not tried again. -/
theorem client_orphaned :
    ¬ ∀ (l : Launch) (es : List Event), Always step AllAttended l.runner es := by
  intro h
  have hlast := (h { devices := 1 }
    [.create, .body 0 (.task 0) { connecting := .contextThrows }]).here rfl
  exact absurd (hlast { tasks := [] } (List.mem_singleton_self _)) (by decide)

end Owls.Runner
