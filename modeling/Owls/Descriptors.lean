import Owls.Base.Inverse
import Owls.Live

/-!
# The descriptors

`Clients_fd_` finds the client of a socket, and each client has the descriptor of its own.
-/

open Machine

namespace Owls

/-- Whether a change keeps the table `m` and the `fd_` of its client together. -/
def Change.Enters (client : Client) (m : Int → Option Nat) (socket : Int) : Change → Prop
  | .none | .clear => True
  | .connect _ => client.fd = some socket ∨ client.fd = Option.none ∧ m socket = Option.none
  | .disconnect closing => client.connected = true → closing = .done

namespace Runner

def fdOf (r : Runner) (c : Nat) : Option Int := r.clients[c]?.bind Client.fd

/-- `Clients_fd_` is the graph of `fd_`, and every connected client has its entry. -/
structure Graph (r : Runner) : Prop where
  inverse : Inverse (fdOf r) r.shared.clientsFd
  connected : ∀ c client, r.clients[c]? = some client → client.connected = true →
    ∃ fd, client.fd = some fd ∧ r.shared.clientsFd fd = some c

/-- A connection that gets through finds its client without a descriptor, and its own without an
owner. A connected client is disconnected to the end. -/
def EntersOwn (r : Runner) : Event → Prop
  | .body c work o => ∀ client, r.clients[c]? = some client →
    (client.change o work).Enters client r.shared.clientsFd o.connecting.socket
  | _ => True

variable {r u : Runner} {e : Event} {c : Nat} {client : Client}

/-! ## Connected clients have a descriptor -/

def Attached (client : Client) : Prop := client.connected = true → client.fd.isSome

theorem fdOf_eq (hc : r.clients[c]? = some client) : fdOf r c = client.fd := by
  rw [fdOf, hc, Option.bind_some]

theorem graph_iff_attached :
    Graph r ↔ Inverse (fdOf r) r.shared.clientsFd ∧ ∀ client ∈ r.clients, Attached client := by
  constructor
  · rintro ⟨hinverse, hconnected⟩
    refine ⟨hinverse, fun client hclient hon => ?_⟩
    obtain ⟨c, hc⟩ := List.mem_iff_getElem?.mp hclient
    obtain ⟨fd, hfd, -⟩ := hconnected c client hc hon
    exact hfd ▸ rfl
  · rintro ⟨hinverse, hattached⟩
    refine ⟨hinverse, fun c client hc hon => ?_⟩
    obtain ⟨fd, hfd⟩ := Option.isSome_iff_exists.mp (hattached _ (List.mem_of_getElem? hc) hon)
    exact ⟨fd, hfd, hinverse.owner ((fdOf_eq hc).trans hfd)⟩

theorem fdOf_set (hc : r.clients[c]? = some client) (client' : Client) (s : Shared) :
    fdOf { r with clients := r.clients.set c client', shared := s } =
      Function.update (fdOf r) c client'.fd := by
  have hlt := (List.getElem?_eq_some_iff.mp hc).1
  funext k
  by_cases hk : k = c
  · rw [hk, Function.update_self, fdOf, List.getElem?_set_self hlt, Option.bind_some]
  · rw [Function.update_of_ne hk, fdOf, List.getElem?_set_ne (Ne.symm hk), fdOf]

theorem fdOf_append : fdOf { r with clients := r.clients ++ [newClient] } = fdOf r := by
  funext k
  unfold fdOf
  rcases lt_trichotomy k r.clients.length with hk | hk | hk
  · rw [List.getElem?_append_left hk]
  · rw [hk, List.getElem?_concat_length, List.getElem?_eq_none le_rfl]
    rfl
  · rw [List.getElem?_eq_none hk.le, List.getElem?_eq_none (by simpa using Nat.succ_le_of_lt hk)]

theorem attached_set_iff (h : ∀ client ∈ r.clients, Attached client)
    (hc : r.clients[c]? = some client) {client' : Client} :
    (∀ x ∈ r.clients.set c client', Attached x) ↔ Attached client' := by
  constructor
  · intro hset
    exact hset _ (List.mem_set (List.getElem?_eq_some_iff.mp hc).1 _)
  · intro hclient' x hx
    rcases List.mem_or_eq_of_mem_set hx with hx | rfl
    · exact h x hx
    · exact hclient'

/-! ## One step -/

theorem inverse_removed (h : Inverse (fdOf r) r.shared.clientsFd)
    (hc : r.clients[c]? = some client) : Inverse (Function.update (fdOf r) c none)
      (Locked.removeClientFd ⟨c, client, r.shared⟩).shared.clientsFd := by
  have hfd := fdOf_eq hc
  obtain ⟨connected, fd⟩ := client
  cases fd with
  | none =>
    have hsame : Function.update (fdOf r) c none = fdOf r :=
      Function.update_eq_self_iff.mpr hfd.symm
    rw [hsame]
    exact h
  | some fd => exact h.erase hfd

theorem enters_iff (h : Inverse (fdOf r) r.shared.clientsFd) (hclient : Attached client)
    (hc : r.clients[c]? = some client) (ch : Change) (o : Outcome) :
    Inverse (Function.update (fdOf r) c (ch.fd o.connecting.socket client.fd))
          (ch.shared ⟨c, client, r.shared⟩ o).clientsFd ∧
        (ch.connected client.connected = true →
          (ch.fd o.connecting.socket client.fd).isSome) ↔
      ch.Enters client r.shared.clientsFd o.connecting.socket := by
  have hfd := fdOf_eq hc
  have hkept : Inverse (Function.update (fdOf r) c client.fd) r.shared.clientsFd := by
    rw [← hfd, Function.update_eq_self]
    exact h
  cases ch with
  | none => exact iff_of_true ⟨hkept, hclient⟩ trivial
  | clear => exact iff_of_true ⟨hkept, fun hon => Bool.noConfusion hon⟩ trivial
  | connect complete =>
    have hiff := h.enter_iff (a := c) (b := o.connecting.socket)
    rw [hfd] at hiff
    exact (and_iff_left fun _ => rfl).trans hiff
  | disconnect closing =>
    refine (and_iff_right (inverse_removed h hc)).trans ?_
    simp [Change.connected, Change.fd, Change.Enters]

theorem graph_step_iff (h : Graph r) (hstep : step r e = some u) : Graph u ↔ EntersOwn r e := by
  rw [graph_iff_attached] at h ⊢
  obtain ⟨hinverse, hattached⟩ := h
  cases stepped_of_step hstep with
  | create hroom =>
    refine iff_of_true ⟨?_, ?_⟩ trivial
    · rw [fdOf_append]
      exact hinverse
    · intro x hx
      rcases List.mem_append.mp hx with hx | hx
      · exact hattached x hx
      · rw [List.mem_singleton.mp hx]
        exact fun hon => Bool.noConfusion hon
  | unknown => exact iff_of_true ⟨hinverse, hattached⟩ trivial
  | @callback fd readable c client hc =>
    refine iff_of_true ⟨?_, ?_⟩ trivial
    · have hfd : (call client readable).fd = fdOf r c := (fdOf_eq hc).symm
      have hset := fdOf_set hc (call client readable) r.shared
      rw [hset, hfd, Function.update_eq_self]
      exact hinverse
    · exact (attached_set_iff hattached hc).mpr (hattached client (List.mem_of_getElem? hc))
  | @body c work o client h' hc hp =>
    have hmade := made_of_perform hp
    have hclient := hattached client (List.mem_of_getElem? hc)
    have hiff := enters_iff hinverse hclient hc (client.change o work) o
    rw [← hmade.fd, ← hmade.connected, ← hmade.shared] at hiff
    rw [fdOf_set hc, attached_set_iff hattached hc]
    refine hiff.trans ⟨fun henters client' hc' => ?_, fun hG => hG client hc⟩
    cases hc.symm.trans hc'
    exact henters

/-! ## Runs -/

theorem graph_launch (l : Launch) : Graph l.runner where
  inverse _ _ := iff_of_false (fun h => nomatch h) (fun h => nomatch h)
  connected _ _ h := nomatch h

/-- `Clients_fd_` is the graph of `fd_` throughout exactly the runs whose bodies enter and remove
their own entries. -/
theorem graph_iff (l : Launch) (es : List Event) :
    Always step Graph l.runner es ↔ Steps step EntersOwn l.runner es :=
  always_iff_steps (J := fun _ => True) (I := Graph) trivial (graph_launch l)
    (fun _ _ _ _ _ => trivial) (fun _ h => h)
    (fun _ _ _ _ h hG he => (graph_step_iff h he).mpr hG)
    (fun _ _ _ _ h he hu => (graph_step_iff h he).mp hu) es

/-- A connection that throws once its socket is in the table, and the one after it. -/
def entryLeft : List Event :=
  [.create, .body 0 (.task 0) { connecting := .sent 7 0 }, .body 0 (.task 4) {},
   .body 0 (.task 4) { connecting := .sent 8 3 }]

/-- The entry of the first socket stays. -/
theorem entry_left_behind :
    ¬ ∀ (l : Launch) (es : List Event), Always step Graph l.runner es := by
  intro h
  have hlast := (h { devices := 1 } entryLeft).here rfl
  have hfd := hlast.inverse.value (a := 0) (b := 7) rfl
  exact absurd hfd (by decide)

end Runner

end Owls
