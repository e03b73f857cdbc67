import Owls.Base.Machine
import Owls.Link

/-!
# `SimulationRunner`: the machine

The clients of one simulation, in any order of their bodies. The two halves of a command that
sleeps are two steps: the other clients go on meanwhile.
-/

open Machine

namespace Owls

/-- `devices` is how many device numbers `run` goes through. -/
structure Runner where
  devices : UInt64
  clients : List Client := []
  shared : Shared := {}

/-- What the coordinator starts a runner with. `others` are the statistics of the simulations
that run already. -/
structure Launch where
  master : Bool := true
  now : UInt64 := 0
  services : MicroServiceMetaVec := {}
  others : SimStats.Statuses := ∅
  runningId : String := ""
  details : SimulationDetails := {}
  uinfo : UserInfo := {}
  devices : UInt64

def Launch.runner (l : Launch) : Runner where
  devices := l.devices
  shared :=
    { master := l.master
      runningId := l.runningId
      stats := SimStats.startSim l.master l.now l.services (l.others.erase l.runningId) l.runningId
        l.details l.uinfo }

namespace Runner

inductive Event where
  /-- The loop of `run` gets to the next device number. -/
  | create
  /-- A callback of the reactor looks the socket up. -/
  | callback (fd : Int) (readable : Bool)
  | body (c : Nat) (work : Work) (o : Outcome)

def newClient : Client := { tasks := [.establishConnection] }

def call (c : Client) (readable : Bool) : Client :=
  { c with waiting := c.waiting ++ [if readable then .reading else .disconnecting] }

def step (r : Runner) : Event → Option Runner
  | .create =>
    if r.clients.length < r.devices.toNat then some { r with clients := r.clients ++ [newClient] }
    else none
  | .callback fd readable =>
    match r.shared.clientsFd fd with
    | none => some r
    | some c => do
      let client ← r.clients[c]?
      some { r with clients := r.clients.set c (call client readable) }
  | .body c work o => do
    let client ← r.clients[c]?
    let h ← Locked.perform ⟨c, client, r.shared⟩ work o
    some { r with clients := r.clients.set c h.client, shared := h.shared }

/-! ## What a step can do -/

inductive Stepped (r : Runner) : Event → Runner → Prop where
  | create (hroom : r.clients.length < r.devices.toNat) :
    Stepped r .create { r with clients := r.clients ++ [newClient] }
  | unknown {fd : Int} {readable : Bool} : Stepped r (.callback fd readable) r
  | callback {fd : Int} {readable : Bool} {c : Nat} {client : Client}
      (hc : r.clients[c]? = some client) :
    Stepped r (.callback fd readable) { r with clients := r.clients.set c (call client readable) }
  | body {c : Nat} {work : Work} {o : Outcome} {client : Client} {h : Locked}
      (hc : r.clients[c]? = some client)
      (hp : Locked.perform ⟨c, client, r.shared⟩ work o = some h) :
    Stepped r (.body c work o) { r with clients := r.clients.set c h.client, shared := h.shared }

variable {r u : Runner} {e : Event}

theorem stepped_of_step (h : step r e = some u) : Stepped r e u := by
  cases e with
  | create =>
    simp only [step] at h
    split at h
    · rename_i hroom
      cases h
      exact .create hroom
    · cases h
  | callback fd readable =>
    simp only [step] at h
    split at h
    · cases h
      exact .unknown
    · simp only [Option.bind_eq_bind, Option.bind_eq_some_iff] at h
      obtain ⟨client, hc, h⟩ := h
      cases h
      exact .callback hc
  | body c work o =>
    simp only [step, Option.bind_eq_bind, Option.bind_eq_some_iff] at h
    obtain ⟨client, hc, h', hp, h⟩ := h
    cases h
    exact .body hc hp

/-! ## Invariants of every client -/

theorem forall_launch (l : Launch) {P : Client → Prop} : ∀ c ∈ l.runner.clients, P c :=
  List.forall_mem_nil P

theorem forall_of_stepped {P : Client → Prop} (hs : Stepped r e u) (h : ∀ c ∈ r.clients, P c)
    (hnew : P newClient) (hcall : ∀ c readable, P c → P (call c readable))
    (hbody : ∀ c work o client client', e = .body c work o → r.clients[c]? = some client →
      client.Performs o work client' → P client → P client') : ∀ c ∈ u.clients, P c := by
  cases hs with
  | create hroom =>
    intro c hc
    rcases List.mem_append.mp hc with hc | hc
    · exact h c hc
    · rw [List.mem_singleton.mp hc]
      exact hnew
  | unknown => exact h
  | callback hc =>
    intro c' hc'
    rcases List.mem_or_eq_of_mem_set hc' with hc' | rfl
    · exact h c' hc'
    · exact hcall _ _ (h _ (List.mem_of_getElem? hc))
  | body hc hp =>
    intro c' hc'
    rcases List.mem_or_eq_of_mem_set hc' with hc' | rfl
    · exact h c' hc'
    · exact hbody _ _ _ _ _ rfl hc (performs_of_perform hp) (h _ (List.mem_of_getElem? hc))

theorem step_sleepsOff (h : ∀ c ∈ r.clients, SleepsOff c) (hstep : step r e = some u) :
    ∀ c ∈ u.clients, SleepsOff c :=
  forall_of_stepped (stepped_of_step hstep) h (fun hsome => nomatch hsome) (fun _ _ hc => hc)
    fun _ _ _ _ _ _ _ hp hclient => sleepsOff_of_performs hp hclient

theorem mem_of_body {c : Nat} {work : Work} {o : Outcome} {client : Client}
    (hc : r.clients[c]? = some client) (hstep : step r (.body c work o) = some u) :
    ∃ client', client.Performs o work client' ∧ client' ∈ u.clients := by
  cases stepped_of_step hstep with
  | body hc' hp =>
    cases hc.symm.trans hc'
    exact ⟨_, performs_of_perform hp, List.mem_set (List.getElem?_eq_some_iff.mp hc).1 _⟩

end Runner

end Owls
