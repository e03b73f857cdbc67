import Owls.WebSockets

/-!
# Notifications to a user

`SendToUser` looks for the user's connection in the order of the descriptors, and stops at the first.
-/

namespace Owls.WebSockets

variable {V : Type}

/-- The connection that `SendToUser` stops at. -/
def firstNamed (s : Server) (userName : String) : Option (Int × Node) :=
  s.clients.toList.find? fun p => p.2.info.userName == userName

/-- `SendToUser` where `sendFrame` takes the whole payload on the connections that accept it. -/
def sendToUserOn (accepts : Int → Bool) (s : Server) (userName : String) (id : UInt64)
    (payload : String) : Bool × List (Note V) :=
  sendToUser s userName id payload ((firstNamed s userName).any fun p => accepts p.1)

variable {accepts : Int → Bool} {s : Server} {userName : String} {id : UInt64} {payload : String}
  {fd : Int} {n : Node}

/-! ## The connections of a user -/

structure Named (s : Server) (userName : String) (fd : Int) (n : Node) : Prop where
  connected : s.clients[fd]? = some n
  name : n.info.userName = userName

structure Lowest (s : Server) (userName : String) (fd : Int) (n : Node) : Prop
    extends Named s userName fd n where
  lowest : ∀ fd' n', Named s userName fd' n' → fd ≤ fd'

/-- Authenticated, the id not filtered, and the frame accepted. -/
structure Deliverable (accepts : Int → Bool) (s : Server) (userName : String) (id : UInt64)
    (fd : Int) (n : Node) : Prop extends Named s userName fd n where
  authenticated : n.info.authenticated = true
  unfiltered : id ∉ n.info.filter
  accepts : accepts fd = true

theorem named_iff_mem :
    Named s userName fd n ↔ (fd, n) ∈ s.clients.toList ∧ n.info.userName = userName := by
  rw [Std.ExtTreeMap.mem_toList_iff_getElem?_eq_some]
  exact ⟨fun h => ⟨h.connected, h.name⟩, fun h => ⟨h.1, h.2⟩⟩

theorem Lowest.unique {fd' : Int} {n' : Node} (h : Lowest s userName fd n)
    (h' : Lowest s userName fd' n') : fd = fd' ∧ n = n' := by
  have hfd : fd = fd' :=
    Int.le_antisymm (h.lowest _ _ h'.toNamed) (h'.lowest _ _ h.toNamed)
  subst hfd
  exact ⟨rfl, Option.some.inj (h.connected.symm.trans h'.connected)⟩

theorem firstNamed_lowest (h : firstNamed s userName = some (fd, n)) :
    Lowest s userName fd n := by
  obtain ⟨hname, before, after, hlist, hbefore⟩ := List.find?_eq_some_iff_append.mp h
  have hmem : (fd, n) ∈ s.clients.toList := by simp [hlist]
  refine ⟨named_iff_mem.mpr ⟨hmem, by simpa using hname⟩, ?_⟩
  intro fd' n' h'
  obtain ⟨hmem', hname'⟩ := named_iff_mem.mp h'
  have hsorted := Std.ExtTreeMap.ordered_keys_toList (t := s.clients)
  rw [hlist] at hmem' hsorted
  rcases List.mem_append.mp hmem' with hin | hin
  · -- No connection before the first match has the name.
    simpa [hname'] using hbefore _ hin
  · rcases List.mem_cons.mp hin with heq | hin
    · exact Int.le_of_eq (congrArg Prod.fst heq).symm
    · have hlt := List.rel_of_pairwise_cons (List.pairwise_append.mp hsorted).2.1 hin
      exact Int.le_of_lt (Int.compare_eq_lt.mp hlt)

theorem firstNamed_none (h : firstNamed s userName = none) (fd : Int) (n : Node) :
    ¬ Named s userName fd n := by
  intro hnamed
  obtain ⟨hmem, hname⟩ := named_iff_mem.mp hnamed
  simpa [hname] using List.find?_eq_none.mp h _ hmem

theorem firstNamed_eq_some_iff : firstNamed s userName = some (fd, n) ↔ Lowest s userName fd n := by
  refine ⟨firstNamed_lowest, fun h => ?_⟩
  cases hfirst : firstNamed s userName with
  | none => exact absurd h.toNamed (firstNamed_none hfirst fd n)
  | some p =>
    obtain ⟨rfl, rfl⟩ := h.unique (firstNamed_lowest hfirst)
    rfl

/-! ## What is delivered -/

/-- The call returns true, and a connection of the user has accepted the payload. -/
def Delivered (accepts : Int → Bool) (s : Server) (userName : String) (id : UInt64)
    (payload : String) (r : Bool × List (Note V)) : Prop :=
  r.1 = true ∧
    ∃ fd n, Named s userName fd n ∧ accepts fd = true ∧ .notified fd id payload ∈ r.2

theorem sendToUserOn_lowest (h : Lowest s userName fd n) :
    sendToUserOn (V := V) accepts s userName id payload =
      if receives id n.info then (accepts fd, [.notified fd id payload]) else (false, []) := by
  have hfirst := firstNamed_eq_some_iff.mpr h
  unfold sendToUserOn sendToUser
  rw [hfirst]
  rw [firstNamed] at hfirst
  rw [hfirst]
  rfl

theorem delivered_iff_lowest (h : Lowest s userName fd n) :
    Delivered (V := V) accepts s userName id payload
        (sendToUserOn accepts s userName id payload) ↔
      Deliverable accepts s userName id fd n := by
  rw [sendToUserOn_lowest h]
  constructor
  · rintro ⟨hsent, fd', n', hnamed, haccepts, hmem⟩
    split at hsent
    · rename_i hreceives
      obtain ⟨hfilter, hauth⟩ := receives_iff.mp hreceives
      exact ⟨h.toNamed, hauth, hfilter, hsent⟩
    · cases hsent
  · intro hd
    rw [if_pos (receives_iff.mpr ⟨hd.unfiltered, hd.authenticated⟩)]
    exact ⟨hd.accepts, fd, n, h.toNamed, hd.accepts, List.mem_singleton_self _⟩

/-- A connection that would deliver is used exactly where the user's first one is such, or none
is. -/
theorem delivers_to_user_iff (accepts : Int → Bool) (s : Server) (userName : String) (id : UInt64)
    (payload : String) :
    ((∃ fd n, Deliverable accepts s userName id fd n) →
        Delivered (V := V) accepts s userName id payload
          (sendToUserOn accepts s userName id payload)) ↔
      (∀ fd n, Lowest s userName fd n → Deliverable accepts s userName id fd n) ∨
        ∀ fd n, ¬ Deliverable accepts s userName id fd n := by
  constructor
  · intro h
    by_cases hany : ∃ fd n, Deliverable accepts s userName id fd n
    · exact .inl fun fd n hlowest => (delivered_iff_lowest hlowest).mp (h hany)
    · exact .inr fun fd n hd => hany ⟨fd, n, hd⟩
  · rintro (hfirst | hnone) ⟨fd, n, hd⟩
    · cases hfound : firstNamed s userName with
      | none => exact absurd hd.toNamed (firstNamed_none hfound fd n)
      | some p =>
        have hlowest := firstNamed_lowest hfound
        exact (delivered_iff_lowest hlowest).mpr (hfirst _ _ hlowest)
    · exact absurd hd (hnone fd n)

/-! ## Two sessions of one user -/

def session (filter : List UInt64) : ClientInfo :=
  { id := "session", userName := "user", authenticated := true, filter }

/-- The first session has dropped the notifications of type 5. -/
def twoSessions : Server :=
  { clients := (∅ : ClientList).insert 3 ⟨0, session [5]⟩ |>.insert 4 ⟨1, session []⟩ }

theorem second_session_missed :
    ¬ ∀ (accepts : Int → Bool) (s : Server) (userName : String) (id : UInt64) (payload : String),
      (∃ fd n, Deliverable accepts s userName id fd n) →
        Delivered (V := SecurityObjects.Node) accepts s userName id payload
          (sendToUserOn accepts s userName id payload) := by
  intro h
  have hd : Deliverable (fun _ => true) twoSessions "user" 5 4 ⟨1, session []⟩ :=
    ⟨⟨rfl, rfl⟩, rfl, List.not_mem_nil, rfl⟩
  have hsent := (h _ _ _ _ "payload" ⟨_, _, hd⟩).1
  exact absurd hsent (by decide)

end Owls.WebSockets
