import Owls.WebSockets

/-!
# The connections to be removed

The iterators in `ToBeRemoved_` over whole runs, up to the pass that erases them.
-/

open Machine

namespace Owls.WebSockets

variable {V : Type} [SecurityObjects.JsonDocument V] (t : Texts V)

/-! ## What the cleaner needs -/

/-- Every iterator denotes an entry, and none is there twice. -/
structure Sound (s : Server) : Prop where
  denotes : ∀ i ∈ s.toBeRemoved, s.denotes i
  nodup : s.toBeRemoved.Nodup

/-- The connections that have ended are gone, and the others are as they were. -/
structure Erases (s u : Server) : Prop where
  clients : ∀ fd, u.clients[fd]? =
    if ∃ i ∈ s.toBeRemoved, i.fd = fd then none else s.clients[fd]?
  toBeRemoved : u.toBeRemoved = []

/-- A pass would erase each ended connection once, and no iterator that is not valid. -/
structure Cleanable (s : Server) : Prop extends Sound s where
  erases : ∃ u, clean s = some u ∧ Erases s u

/-- The iterator that an event adds to `ToBeRemoved_`. -/
def ending (s : Server) : Event → Option Iterator
  | .readable fd frame o =>
    (s.clients[fd]?).bind fun n =>
      let r := onFrame t s.processor fd n.info o frame
      if pushes { n with info := r.1 } o r.2.2 then some ⟨fd, n.node⟩ else none
  | .error fd o | .shutdown fd o =>
    (s.clients[fd]?).bind fun n => if pushes n o .throws then some ⟨fd, n.node⟩ else none
  | _ => none

/-- No callback ends a connection that waits to be removed, and none waits when `Stop` clears the
table. -/
def EndsOnce (s : System V) : Event → Prop
  | .stop => s.server.running = true → s.server.toBeRemoved = []
  | e => ∀ i ∈ ending t s.server e, i ∉ s.server.toBeRemoved

/-! ## The pass -/

theorem eraseAll_eq {clients : ClientList} {l : List Iterator}
    (hdenotes : ∀ i ∈ l, (clients[i.fd]?).map (·.node) = some i.node) (hnodup : l.Nodup) :
    ∃ erased, eraseAll clients l = some erased ∧
      ∀ fd, erased[fd]? = if ∃ i ∈ l, i.fd = fd then none else clients[fd]? := by
  induction l generalizing clients with
  | nil => exact ⟨clients, rfl, fun fd => by simp⟩
  | cons i l ih =>
    obtain ⟨hi, hl⟩ := List.forall_mem_cons.mp hdenotes
    obtain ⟨hfresh, hnodup⟩ := List.nodup_cons.mp hnodup
    -- Another iterator to the same key would point to the same node.
    have hkey : ∀ j ∈ l, i.fd ≠ j.fd := by
      rintro ⟨fd, node⟩ hj rfl
      obtain rfl : i.node = node := Option.some.inj (hi.symm.trans (hl _ hj))
      exact hfresh hj
    have hrest : ∀ j ∈ l, ((clients.erase i.fd)[j.fd]?).map (·.node) = some j.node := by
      intro j hj
      rw [Std.ExtTreeMap.getElem?_erase, if_neg (by simpa using hkey j hj)]
      exact hl j hj
    obtain ⟨erased, herased, hlookup⟩ := ih hrest hnodup
    refine ⟨erased, by rw [eraseAll, if_pos hi, herased], fun fd => ?_⟩
    rw [hlookup, Std.ExtTreeMap.getElem?_erase]
    by_cases hfd : i.fd = fd <;> simp [hfd]

theorem cleanable_of_sound {s : Server} (h : Sound s) : Cleanable s := by
  obtain ⟨erased, herased, hlookup⟩ := eraseAll_eq h.denotes h.nodup
  exact ⟨h, _, by rw [clean, herased]; rfl, hlookup, rfl⟩

/-! ## One step -/

/-- A step that erases nothing. -/
structure Keeps (s u : Server) (i : Option Iterator) : Prop where
  denotes : ∀ j, s.denotes j → u.denotes j
  entry : ∀ j ∈ i, s.denotes j
  toBeRemoved : u.toBeRemoved = s.toBeRemoved ++ i.toList

theorem keeps_of_eq {s u : Server} (hclients : u.clients = s.clients)
    (hremoved : u.toBeRemoved = s.toBeRemoved) : Keeps s u none := by
  refine ⟨fun j hj => ?_, by simp, by simp [hremoved]⟩
  rw [Server.denotes, hclients]
  exact hj

theorem keeps_settle {s : Server} {fd : Int} {n : Node} (hn : s.denotes ⟨fd, n.node⟩)
    (info : ClientInfo) (pushed : Bool) :
    Keeps s (s.settle fd n info pushed) (if pushed then some ⟨fd, n.node⟩ else none) := by
  refine ⟨?_, ?_, ?_⟩
  · intro j hj
    rw [Server.denotes, getElem?_settle]
    split
    · rename_i hfd
      rw [Server.denotes, ← hfd, hn] at hj
      exact hj
    · exact hj
  · intro j hj
    cases pushed with
    | true =>
      obtain rfl : ⟨fd, n.node⟩ = j := Option.some.inj hj
      exact hn
    | false => cases hj
  · cases pushed <;> simp [Server.settle, Server.assign]

omit [SecurityObjects.JsonDocument V] in
theorem keeps_newClient (s : Server) (fd : Int) (id userName : String) (added : Bool) :
    Keeps s (newClient (V := V) s fd id userName added).1 none := by
  cases added with
  | false => exact keeps_of_eq rfl rfl
  | true =>
    refine ⟨fun j hj => ?_, by simp, by simp [newClient]⟩
    rw [Server.denotes] at hj ⊢
    simp only [newClient, if_true, Std.ExtTreeMap.getElem?_insert, Std.compare_eq_iff_eq]
    split
    · rename_i hfd
      simp [hfd, hj]
    · exact hj

theorem keeps_onSocketError (s : Server) (fd : Int) (o : Outcome) :
    Keeps s (onSocketError s fd o) (ending t s (.error fd o)) := by
  cases hn : s.clients[fd]? with
  | none =>
    simp only [onSocketError, ending, hn, Option.bind_none]
    exact keeps_of_eq rfl rfl
  | some n =>
    have hentry : s.denotes ⟨fd, n.node⟩ := by simp [Server.denotes, hn]
    simp only [onSocketError, ending, hn, Option.bind_some, endConnection_eq]
    exact keeps_settle hentry _ _

theorem keeps_onSocketReadable (s : Server) (fd : Int) (frame : Frame) (o : Outcome) :
    Keeps s (onSocketReadable t s fd frame o).1 (ending t s (.readable fd frame o)) := by
  cases hn : s.clients[fd]? with
  | none =>
    simp only [onSocketReadable, ending, hn, Option.bind_none]
    exact keeps_of_eq rfl rfl
  | some n =>
    have hentry : s.denotes ⟨fd, n.node⟩ := by simp [Server.denotes, hn]
    simp only [onSocketReadable, ending, hn, Option.bind_some, leave_eq]
    exact keeps_settle hentry _ _

theorem keeps_of_step {s u : System V} {e : Event} (h : step t s e = some u) (hclean : e ≠ .clean)
    (hstop : e ≠ .stop) : Keeps s.server u.server (ending t s.server e) := by
  cases e with
  | clean => exact absurd rfl hclean
  | stop => exact absurd rfl hstop
  | readable fd frame o =>
    cases h
    exact keeps_onSocketReadable t s.server fd frame o
  | error fd o | shutdown fd o =>
    cases h
    exact keeps_onSocketError t s.server fd o
  | newClient fd id userName added =>
    cases h
    exact keeps_newClient s.server fd id userName added
  | stopped =>
    obtain ⟨-, h⟩ := Option.ite_none_right_eq_some.mp h
    cases h
    exact keeps_of_eq rfl rfl
  | start | setProcessor | sendToUser | sendToAll =>
    cases h
    exact keeps_of_eq rfl rfl

theorem sound_of_nil {s : Server} (h : s.toBeRemoved = []) : Sound s :=
  ⟨by simp [h], by simp [h]⟩

theorem sound_of_keeps {s u : Server} {i : Option Iterator} (hkeeps : Keeps s u i) (h : Sound s)
    (hi : ∀ j ∈ i, j ∉ s.toBeRemoved) : Sound u := by
  refine ⟨?_, ?_⟩
  · intro j hj
    rw [hkeeps.toBeRemoved, List.mem_append, Option.mem_toList] at hj
    rcases hj with hj | hj
    · exact hkeeps.denotes j (h.denotes j hj)
    · exact hkeeps.denotes j (hkeeps.entry j hj)
  · rw [hkeeps.toBeRemoved, List.nodup_append]
    refine ⟨h.nodup, ?_, ?_⟩
    · cases i <;> simp
    · rintro j hj k hk rfl
      exact hi j (Option.mem_toList.mp hk) hj

theorem fresh_of_keeps {s u : Server} {i : Option Iterator} (hkeeps : Keeps s u i) (h : Sound u) :
    ∀ j ∈ i, j ∉ s.toBeRemoved := by
  intro j hj hold
  have hnodup := h.nodup
  rw [hkeeps.toBeRemoved, List.nodup_append] at hnodup
  exact hnodup.2.2 j hold j (Option.mem_toList.mpr hj) rfl

theorem endsOnce_iff {s : System V} {e : Event} (hstop : e ≠ .stop) :
    EndsOnce t s e ↔ ∀ i ∈ ending t s.server e, i ∉ s.server.toBeRemoved := by
  cases e with
  | stop => exact absurd rfl hstop
  | _ => exact Iff.rfl

theorem sound_step {s u : System V} {e : Event} (h : Sound s.server) (he : EndsOnce t s e)
    (hu : step t s e = some u) : Sound u.server := by
  by_cases hclean : e = .clean
  · subst hclean
    obtain ⟨v, hv, rfl⟩ := Option.map_eq_some_iff.mp hu
    obtain ⟨clients, -, rfl⟩ := Option.map_eq_some_iff.mp hv
    exact sound_of_nil rfl
  by_cases hstop : e = .stop
  · subst hstop
    cases hu
    change Sound (stop s.server)
    unfold stop
    split
    · rename_i hrunning
      exact sound_of_nil (he hrunning)
    · exact h
  · exact sound_of_keeps (keeps_of_step t hu hclean hstop) h ((endsOnce_iff t hstop).mp he)

theorem endsOnce_of_sound {s u : System V} {e : Event} (hu : step t s e = some u)
    (h : Sound u.server) : EndsOnce t s e := by
  by_cases hclean : e = .clean
  · subst hclean
    rintro i ⟨⟩
  by_cases hstop : e = .stop
  · subst hstop
    intro hrunning
    have hsound : Sound (stop s.server) := by
      cases hu
      exact h
    rw [stop, if_pos hrunning] at hsound
    refine List.eq_nil_iff_forall_not_mem.mpr fun i hi => ?_
    have hentry := hsound.denotes i hi
    rw [Server.denotes, Std.ExtTreeMap.getElem?_empty] at hentry
    cases hentry
  · exact (endsOnce_iff t hstop).mpr (fresh_of_keeps (keeps_of_step t hu hclean hstop) h)

/-! ## Runs -/

/-- In exactly the runs in which no callback ends a connection again that waits to be removed, and
`Stop` finds none waiting, what waits to be removed can be removed at all times. -/
theorem removals_valid_iff (es : List Event) :
    Always (step t) (fun s => Cleanable s.server) {} es ↔ Steps (step t) (EndsOnce t) {} es := by
  have hempty : Sound ({} : System V).server := sound_of_nil rfl
  exact always_iff_steps (J := fun _ => True) (I := fun s => Sound s.server) trivial hempty
    (fun _ _ _ _ _ => trivial) (fun _ h => cleanable_of_sound h)
    (fun _ _ _ _ h he hu => sound_step t h he hu)
    (fun _ _ _ _ _ hu h => endsOnce_of_sound t hu h.toSound) es

/-- A client closes its connection, and the service stops before the next pass. -/
def closing : List Event := [.start, .newClient 3 "id" "user" true, .readable 3 .close {}, .stop]

theorem stop_keeps_iterators :
    ¬ ∀ (t : Texts SecurityObjects.Node) (es : List Event),
      Always (step t) (fun s => Cleanable s.server) {} es := by
  intro h
  have hcleanable := (h ⟨fun _ => none, ""⟩ closing).here rfl
  have hentry := hcleanable.denotes ⟨3, 0⟩ (by decide)
  exact absurd hentry (by decide)

end Owls.WebSockets
