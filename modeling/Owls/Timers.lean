import Owls.Runner

/-!
# The timers of a client

Every connection that sends its message starts the timers of the client anew. A chain that an
earlier connection started ends only when its task runs while the client is disconnected.
-/

open Machine

namespace Owls.Runner

def timers : List Task := [.state, .healthCheck, .wsPing]

def SingleTimers (c : Client) : Prop := ∀ k ∈ timers, c.tasks.count k ≤ 1

instance (c : Client) : Decidable (SingleTimers c) :=
  inferInstanceAs (Decidable (∀ k ∈ timers, c.tasks.count k ≤ 1))

/-- A connection that sends its message finds no timer of its client pending. -/
def TimersDone (r : Runner) : Event → Prop
  | .body c (.task i) o => ∀ client, r.clients[c]? = some client →
    client.tasks[i]? = some .establishConnection → (∃ fd n, o.connecting = .sent fd n) →
    ∀ k ∈ timers, k ∉ client.tasks
  | _ => True

variable {c c' : Client} {o : Outcome} {k t : Task}

/-! ## One body -/

theorem timers_spec (hk : k ∈ timers) : k ≠ .establishConnection ∧ k ≠ .reconnect ∧
    [Task.state, .healthCheck, .log, .wsPing].count k = 1 := by
  simp only [timers, List.mem_cons, List.not_mem_nil, or_false] at hk
  rcases hk with rfl | rfl | rfl <;> decide

theorem count_reconnecting (hk : k ∈ timers) (closing : Closing) :
    (c.reconnecting closing).tasks.count k = c.tasks.count k := by
  have hne := (timers_spec hk).1.symm
  unfold Client.reconnecting
  split
  · simp [Client.schedule, Client.disconnected, hne]
  · rfl

theorem count_answer (hk : k ∈ timers) : (c.answer o).tasks.count k = c.tasks.count k := by
  unfold Client.answer
  split
  · rfl
  · exact count_reconnecting hk o.closing

theorem count_restart (hk : k ∈ timers) (command : Command) (continues : Bool) :
    (c.restart command continues o).tasks.count k = c.tasks.count k := by
  unfold Client.restart
  split
  · split <;> rfl
  · exact count_reconnecting hk o.closing

theorem count_reconnect (hk : k ∈ timers) : c.reconnect.tasks.count k = c.tasks.count k := by
  have hne := (timers_spec hk).1.symm
  simp [Client.reconnect, Client.schedule, hne]

theorem count_runWaiting (hk : k ∈ timers) (w : Waiting) :
    (c.runWaiting w o).tasks.count k = c.tasks.count k := by
  cases w with
  | disconnecting =>
    unfold Client.runWaiting
    simp only
    split <;> rfl
  | reconnecting => exact count_reconnect hk
  | reading =>
    unfold Client.runWaiting
    cases o.frame with
    | quiet | command => rfl
    | failed => exact count_reconnecting hk o.closing
    | unsupported => exact count_answer hk
  | command r =>
    simp only [Client.runWaiting, Client.runCommand]
    split
    · exact count_restart hk r.command r.continues
    · split
      · exact count_answer hk
      · rfl

theorem count_establish (hk : k ∈ timers) (a : Connecting) :
    (c.establish a).tasks.count k =
      c.tasks.count k + (match a with | .sent _ _ => 1 | _ => 0) := by
  obtain ⟨-, hne, hone⟩ := timers_spec hk
  cases a with
  | contextThrows => rfl
  | socketThrows | optionThrows | notSent =>
    simp [Client.establish, Client.schedule, hne.symm]
  | sent fd n =>
    simp only [Client.establish]
    split
    · rw [List.count_append, hone]
    · simp only [Client.schedule, List.count_append, hone]
      simp [hne.symm]

theorem count_timer (hk : k ∈ timers) :
    (c.timer t o).tasks.count k ≤ c.tasks.count k + (if t = k then 1 else 0) := by
  unfold Client.timer
  split
  · split
    · split
      · exact Nat.le_add_right _ _
      · simp [Client.schedule, List.count_singleton]
    · rw [count_reconnecting hk]
      exact Nat.le_add_right _ _
  · exact Nat.le_add_right _ _

theorem count_runTask (hk : k ∈ timers)
    (ht : t = .establishConnection → ∀ fd n, o.connecting ≠ .sent fd n) :
    (c.runTask t o).tasks.count k ≤ c.tasks.count k + (if t = k then 1 else 0) := by
  cases t with
  | establishConnection =>
    rw [Client.runTask, count_establish hk]
    cases ho : o.connecting with
    | sent fd n => exact absurd ho (ht rfl fd n)
    | contextThrows | socketThrows | optionThrows | notSent => simp
  | reconnect =>
    rw [Client.runTask, count_reconnect hk]
    exact Nat.le_add_right _ _
  | state | healthCheck | log | wsPing => exact count_timer hk

/-! ## Runs -/

theorem singleTimers_of_performs {work : Work} (h : c.Performs o work c')
    (hc : SingleTimers c)
    (hG : ∀ i, work = .task i → c.tasks[i]? = some .establishConnection →
      (∃ fd n, o.connecting = .sent fd n) → ∀ k ∈ timers, k ∉ c.tasks) :
    SingleTimers c' := by
  intro k hk
  have hle := hc k hk
  cases h with
  | lost ht ho => exact ((List.eraseIdx_sublist c.tasks _).count_le k).trans hle
  | task ht hfree ho =>
    rename_i i t
    have hcount := count_takeTask ht k
    by_cases hsent : t = .establishConnection ∧ ∃ fd n, o.connecting = .sent fd n
    · -- The connection finds no task `k`, and starts one.
      obtain ⟨rfl, fd, n, hsent⟩ := hsent
      have hnone := List.count_eq_zero_of_not_mem (hG i rfl ht ⟨fd, n, hsent⟩ k hk)
      rw [Client.runTask, count_establish hk, hsent]
      simp only
      omega
    · refine (count_runTask hk fun ht' fd n ho' => hsent ⟨ht', fd, n, ho'⟩).trans ?_
      omega
  | waiting hw hfree =>
    rw [count_runWaiting hk]
    exact hle
  | wake hheld =>
    rw [Client.wake, count_reconnecting hk]
    exact hle

theorem timersDone_of_performs {i : Nat} (h : c.Performs o (.task i) c')
    (ht : c.tasks[i]? = some .establishConnection) (hsent : ∃ fd n, o.connecting = .sent fd n)
    (hc' : SingleTimers c') : ∀ k ∈ timers, k ∉ c.tasks := by
  obtain ⟨fd, n, hsent⟩ := hsent
  intro k hk
  have hle := hc' k hk
  cases h with
  | lost ht' ho =>
    rw [hsent] at ho
    cases ho
  | task ht' hfree ho =>
    cases ht.symm.trans ht'
    have hne := (timers_spec hk).1.symm
    have hcount := count_takeTask ht k
    rw [if_neg hne] at hcount
    rw [Client.runTask, count_establish hk, hsent] at hle
    simp only at hle
    exact List.count_eq_zero.mp (by omega)

theorem step_singleTimers {r u : Runner} {e : Event} (h : ∀ c ∈ r.clients, SingleTimers c)
    (hG : TimersDone r e) (hstep : step r e = some u) : ∀ c ∈ u.clients, SingleTimers c := by
  refine forall_of_stepped (stepped_of_step hstep) h (by decide) (fun _ _ hc => hc) ?_
  rintro c work o client client' rfl hc hp hclient
  refine singleTimers_of_performs hp hclient ?_
  rintro i rfl ht hsent
  exact hG client hc ht hsent

theorem timersDone_of_step {r u : Runner} {e : Event} (hstep : step r e = some u)
    (hu : ∀ c ∈ u.clients, SingleTimers c) : TimersDone r e := by
  cases e with
  | create | callback => trivial
  | body c work o =>
    cases work with
    | waiting | wake => trivial
    | task i =>
      intro client hc ht hsent
      obtain ⟨client', hp, hmem⟩ := mem_of_body hc hstep
      exact timersDone_of_performs hp ht hsent (hu client' hmem)

/-- A client has at most one pending task of each timer in exactly the runs in which every
connection that sends its message finds none. -/
theorem single_timers_iff (l : Launch) (es : List Event) :
    Always step (fun r => ∀ c ∈ r.clients, SingleTimers c) l.runner es ↔
      Steps step TimersDone l.runner es :=
  always_iff_steps (J := fun _ => True) trivial (forall_launch l)
    (fun _ _ _ _ _ => trivial) (fun _ h => h) (fun _ _ _ _ h hG he => step_singleTimers h hG he)
    (fun _ _ _ _ _ he hu => timersDone_of_step he hu) es

/-- A socket that is shut down and a connection that comes before the timers run. -/
def reconnectEarly : List Event :=
  [.create, .body 0 (.task 0) { connecting := .sent 7 3 }, .callback 7 false,
   .body 0 (.waiting 0) {}, .body 0 (.waiting 0) {},
   .body 0 (.task 4) { connecting := .sent 8 3 }]

/-- The client of this run has two tasks of each timer. -/
theorem timers_doubled :
    ¬ ∀ (l : Launch) (es : List Event),
      Always step (fun r => ∀ c ∈ r.clients, SingleTimers c) l.runner es := by
  intro h
  have hlast := (h { devices := 1 } reconnectEarly).here rfl
  exact absurd hlast (by decide)

end Owls.Runner
