import Owls.Base.Machine

/-!
# Starting and stopping a runner

`Start` only starts the thread of `run`, which raises `Running_` itself and then builds the
clients under the mutex of the runner. `Stop` may come at any moment of that.
-/

open Machine

namespace Owls.StartStop

/-! ## The machine -/

inductive Worker where
  /-- `Start` has not been called. -/
  | idle
  | started
  /-- It has set `Running_`, and waits for the mutex. -/
  | raised
  /-- It holds the mutex, in the loop over the devices. -/
  | building
  | finished
deriving DecidableEq

/-- `devices` is how many clients the loop of `run` makes. -/
structure Runner where
  devices : Nat
  running : Bool := false
  worker : Worker := .idle
  /-- Clients that `run` has created, each with its `EstablishConnection` scheduled. -/
  created : Nat := 0
  /-- What is left of them in `Clients_`. -/
  clients : Nat := 0
  /-- Calls of `Stop` that have found `Running_` set. -/
  tested : Nat := 0
  /-- Those that have cleared it, and wait for the mutex. -/
  cleared : Nat := 0
  /-- A call of `Stop` made after `Start` has returned. -/
  stopped : Bool := false

inductive Event where
  | start
  | raise
  | enter
  | create
  /-- `run` comes to its end, or an exception ends it. -/
  | leave
  /-- A call of `Stop` tests `Running_`, and returns when it is not set. -/
  | test
  | clear
  /-- The mutex-protected part of `Stop`, after which it returns. -/
  | close

def step (r : Runner) : Event → Option Runner
  | .start => if r.worker = .idle then some { r with worker := .started } else none
  | .raise =>
    if r.worker = .started then some { r with worker := .raised, running := true } else none
  | .enter => if r.worker = .raised then some { r with worker := .building } else none
  | .create =>
    if r.worker = .building ∧ r.created < r.devices then
      some { r with created := r.created + 1, clients := r.clients + 1 }
    else none
  | .leave => if r.worker = .building then some { r with worker := .finished } else none
  | .test =>
    if r.running then some { r with tested := r.tested + 1 }
    else some { r with stopped := r.stopped || r.worker != .idle }
  | .clear =>
    if 0 < r.tested then
      some { r with running := false, tested := r.tested - 1, cleared := r.cleared + 1 }
    else none
  | .close =>
    if 0 < r.cleared ∧ r.worker ≠ .building then
      some { r with clients := 0, cleared := r.cleared - 1, stopped := true }
    else none

def launch (devices : Nat) : Runner := { devices }

/-! ## Staying stopped -/

/-- Once a `Stop` has returned, nothing that may still happen sets `Running_` or makes a client. -/
def Quiet (r : Runner) : Prop :=
  r.stopped = true → ∀ es u, run step r es = some u → u.running = false ∧ u.created = r.created

/-- `run` has nothing more to make. -/
def Runner.Done (r : Runner) : Prop :=
  r.worker = .finished ∨
  (r.worker = .raised ∨ r.worker = .building) ∧ r.created = r.devices

/-- A `Stop` that returns, of those made after `Start`, finds `run` done. -/
def Settled (r : Runner) : Event → Prop
  | .test => r.running = false → r.worker ≠ .idle → r.Done
  | .close => r.Done
  | _ => True

variable {r u : Runner} {e : Event}

/-- Before `run` raises the flag it is down, and no `Stop` has found it up. -/
structure Ordered (r : Runner) : Prop where
  before : r.worker = .idle ∨ r.worker = .started →
    r.running = false ∧ r.tested = 0 ∧ r.cleared = 0
  fresh : r.worker ≠ .building → r.worker ≠ .finished → r.created = 0
  down : 0 < r.cleared → r.running = false
  bound : r.created ≤ r.devices

structure Safe (r : Runner) : Prop where
  down : r.stopped = true → r.running = false
  done : r.stopped = true → r.Done

/-! ## What a step can do -/

inductive Stepped (r : Runner) : Event → Runner → Prop where
  | start (hw : r.worker = .idle) : Stepped r .start { r with worker := .started }
  | raise (hw : r.worker = .started) :
    Stepped r .raise { r with worker := .raised, running := true }
  | enter (hw : r.worker = .raised) : Stepped r .enter { r with worker := .building }
  | create (hw : r.worker = .building) (hmore : r.created < r.devices) :
    Stepped r .create { r with created := r.created + 1, clients := r.clients + 1 }
  | leave (hw : r.worker = .building) : Stepped r .leave { r with worker := .finished }
  | found (hrun : r.running = true) : Stepped r .test { r with tested := r.tested + 1 }
  | missed (hrun : r.running = false) :
    Stepped r .test { r with stopped := r.stopped || r.worker != .idle }
  | clear (hpos : 0 < r.tested) :
    Stepped r .clear
      { r with running := false, tested := r.tested - 1, cleared := r.cleared + 1 }
  | close (hpos : 0 < r.cleared) (hw : r.worker ≠ .building) :
    Stepped r .close { r with clients := 0, cleared := r.cleared - 1, stopped := true }

theorem stepped_of_step (h : step r e = some u) : Stepped r e u := by
  cases e with
  | start =>
    simp only [step] at h
    split at h <;> cases h
    rename_i hw
    exact .start hw
  | raise =>
    simp only [step] at h
    split at h <;> cases h
    rename_i hw
    exact .raise hw
  | enter =>
    simp only [step] at h
    split at h <;> cases h
    rename_i hw
    exact .enter hw
  | create =>
    simp only [step] at h
    split at h <;> cases h
    rename_i hmore
    exact .create hmore.1 hmore.2
  | leave =>
    simp only [step] at h
    split at h <;> cases h
    rename_i hw
    exact .leave hw
  | test =>
    simp only [step] at h
    split at h <;> cases h
    · rename_i hrun
      exact .found hrun
    · rename_i hrun
      exact .missed (Bool.not_eq_true _ ▸ hrun)
  | clear =>
    simp only [step] at h
    split at h <;> cases h
    rename_i hpos
    exact .clear hpos
  | close =>
    simp only [step] at h
    split at h <;> cases h
    rename_i hclose
    exact .close hclose.1 hclose.2

/-! ## Steps -/

theorem ordered_step (h : Ordered r) (hstep : step r e = some u) : Ordered u := by
  obtain ⟨hbefore, hfresh, hdown, hbound⟩ := h
  cases stepped_of_step hstep with
  | start hw =>
    have hidle := hbefore (.inl hw)
    have hzero := hfresh (by simp [hw]) (by simp [hw])
    exact ⟨fun _ => hidle, fun _ _ => hzero, hdown, hbound⟩
  | raise hw =>
    have hstarted := hbefore (.inr hw)
    have hzero := hfresh (by simp [hw]) (by simp [hw])
    exact ⟨by simp, fun _ _ => hzero, fun hpos => absurd hstarted.2.2 (Nat.ne_of_gt hpos), hbound⟩
  | enter | leave => exact ⟨by simp, by simp, hdown, hbound⟩
  | create hw hmore => exact ⟨by simp [hw], fun hb => absurd hw hb, hdown, hmore⟩
  | found hrun =>
    refine ⟨fun hw => ?_, hfresh, hdown, hbound⟩
    rw [(hbefore hw).1] at hrun
    cases hrun
  | missed => exact ⟨hbefore, hfresh, hdown, hbound⟩
  | clear hpos =>
    refine ⟨fun hw => ?_, hfresh, fun _ => rfl, hbound⟩
    have hzero := (hbefore hw).2.1
    omega
  | close hpos =>
    refine ⟨fun hw => ?_, hfresh, fun h => hdown (by omega), hbound⟩
    have hzero := (hbefore hw).2.2
    omega

theorem Runner.Done.started (h : r.Done) : r.worker ≠ .idle ∧ r.worker ≠ .started := by
  rcases h with hw | ⟨hw | hw, -⟩ <;> simp [hw]

theorem done_step (h : r.Done) (hstep : step r e = some u) :
    u.Done ∧ u.created = r.created := by
  cases stepped_of_step hstep with
  | start hw => exact absurd hw h.started.1
  | raise hw => exact absurd hw h.started.2
  | enter hw =>
    rcases h with hfinished | ⟨-, hall⟩
    · cases hw.symm.trans hfinished
    · exact ⟨.inr ⟨.inr rfl, hall⟩, rfl⟩
  | create hw hmore =>
    rcases h with hfinished | ⟨-, hall⟩
    · cases hw.symm.trans hfinished
    · omega
  | leave => exact ⟨.inl rfl, rfl⟩
  | found | missed | clear | close => exact ⟨h, rfl⟩

theorem down_step (h : r.Done) (hdown : r.running = false) (hstep : step r e = some u) :
    u.running = false := by
  cases stepped_of_step hstep with
  | raise hw => exact absurd hw h.started.2
  | clear => rfl
  | start | enter | create | leave | found | missed | close => exact hdown

theorem quiet_of_safe (h : Safe r) : Quiet r := by
  intro hstopped es u hrun
  have hdone := h.done hstopped
  have hdown := h.down hstopped
  clear h hstopped
  induction es generalizing r with
  | nil =>
    cases hrun
    exact ⟨hdown, rfl⟩
  | cons e es ih =>
    obtain ⟨t, hstep, hrun⟩ := Option.bind_eq_some_iff.mp hrun
    obtain ⟨hdone', hcreated⟩ := done_step hdone hstep
    rw [← hcreated]
    exact ih hrun hdone' (down_step hdone hdown hstep)

theorem safe_step (hordered : Ordered r) (h : Safe r) (hsettled : Settled r e)
    (hstep : step r e = some u) : Safe u := by
  -- Only a `Stop` that returns makes the runner a stopped one.
  have hback : u.stopped = true → r.Done ∧ r.running = false := by
    intro hstopped
    cases stepped_of_step hstep with
    | missed hrun =>
      rcases Bool.or_eq_true_iff.mp hstopped with hold | hw
      · exact ⟨h.done hold, hrun⟩
      · exact ⟨hsettled hrun (bne_iff_ne.mp hw), hrun⟩
    | close hpos => exact ⟨hsettled, hordered.down hpos⟩
    | start | raise | enter | create | leave | found | clear =>
      exact ⟨h.done hstopped, h.down hstopped⟩
  constructor
  · intro hstopped
    exact down_step (hback hstopped).1 (hback hstopped).2 hstep
  · intro hstopped
    exact (done_step (hback hstopped).1 hstep).1

theorem done_of_quiet (hordered : Ordered r) (hw : r.worker ≠ .idle)
    (hquiet : ∀ es u, run step r es = some u → u.running = false ∧ u.created = r.created) :
    r.Done := by
  cases hworker : r.worker with
  | idle => exact absurd hworker hw
  | started =>
    have hraised := hquiet [.raise] { r with worker := .raised, running := true }
      (by simp [step, hworker])
    cases hraised.1
  | raised =>
    have hzero := hordered.fresh (by simp [hworker]) (by simp [hworker])
    by_cases hnone : r.devices = 0
    · exact .inr ⟨.inl hworker, by omega⟩
    · have hcreated := hquiet [.enter, .create] { r with
        worker := .building, created := r.created + 1, clients := r.clients + 1 }
        (by simp [step, hworker, hzero, Nat.pos_of_ne_zero hnone])
      exact absurd hcreated.2 (Nat.succ_ne_self _)
  | building =>
    rcases Nat.eq_or_lt_of_le hordered.bound with hall | hlt
    · exact .inr ⟨.inr hworker, hall⟩
    · have hcreated := hquiet [.create] { r with
        created := r.created + 1, clients := r.clients + 1 } (by simp [step, hworker, hlt])
      exact absurd hcreated.2 (Nat.succ_ne_self _)
  | finished => exact .inl hworker

theorem settled_of_quiet (hordered : Ordered r) (hstep : step r e = some u) (h : Quiet u) :
    Settled r e := by
  have hordered' := ordered_step hordered hstep
  cases stepped_of_step hstep with
  | found hrun =>
    intro hdown
    cases hrun.symm.trans hdown
  | missed hrun =>
    intro _ hw
    have hdone := done_of_quiet hordered' hw (h (by simp [hw]))
    exact hdone
  | close hpos =>
    have hidle : r.worker ≠ .idle := fun hw => by
      have hzero := (hordered.before (.inl hw)).2.2
      omega
    have hdone := done_of_quiet hordered' hidle (h rfl)
    exact hdone
  | start | raise | enter | create | leave | clear => trivial

/-! ## Runs -/

theorem ordered_launch (devices : Nat) : Ordered (launch devices) where
  before _ := ⟨rfl, rfl, rfl⟩
  fresh _ _ := rfl
  down _ := rfl
  bound := Nat.zero_le devices

/-- A stopped runner stays as it is in exactly the runs in which every `Stop` that returns finds
`run` done: none of them comes before the worker has raised the flag and built the clients. -/
theorem quiet_iff (devices : Nat) (es : List Event) :
    Always step Quiet (launch devices) es ↔ Steps step Settled (launch devices) es :=
  always_iff_steps (J := Ordered) (I := Safe) (ordered_launch devices) ⟨nofun, nofun⟩
    (fun _ _ _ h hstep => ordered_step h hstep) (fun _ h => quiet_of_safe h)
    (fun _ _ _ hJ hI hG hstep => safe_step hJ hI hG hstep)
    (fun _ _ _ hJ _ hstep h => settled_of_quiet hJ hstep h) es

/-- `Stop` finds the flag not set yet, and the worker sets it afterwards. -/
theorem stopped_too_early : ¬ ∀ devices es, Always step Quiet (launch devices) es := by
  intro h
  have hquiet := (h 1 [.start, .test]).here rfl
  have hraised := hquiet rfl [.raise] _ rfl
  cases hraised.1

end Owls.StartStop
