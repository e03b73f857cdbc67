import Owls.WebSockets

/-!
# Who is notified

What goes out to a connection over whole runs, against what came in on it: a token that was
accepted, and the last list of notifications to drop.
-/

open Machine Fields

namespace Owls.WebSockets

open JsonValue

variable {V : Type}

/-! ## What an observer keeps of a connection -/

def Note.fd : Note V → Int
  | .connected fd | .accepted fd | .dropList fd _ | .processed fd | .reply fd _
  | .notified fd _ _ => fd

structure Watch (V : Type) where
  accepted : Bool := false
  drops : List V := []

def Watch.note (fd : Int) (w : Watch V) : Note V → Watch V
  | .connected k => if k = fd then {} else w
  | .accepted k => if k = fd then { w with accepted := true } else w
  | .dropList k list => if k = fd then { w with drops := list } else w
  | .processed _ | .reply _ _ | .notified _ _ _ => w

def Watch.notes (fd : Int) (w : Watch V) (notes : List (Note V)) : Watch V :=
  notes.foldl (Watch.note fd) w

def watch (log : List (Note V)) (fd : Int) : Watch V := Watch.notes fd {} log

/-- Notifications and calls of the processor are for connections that were accepted. -/
def FromAccepted (w : Watch V) : Note V → Prop
  | .notified _ _ _ | .processed _ => w.accepted = true
  | .connected _ | .accepted _ | .dropList _ _ | .reply _ _ => True

/-- No notification is of a type on the last list. -/
def NotDropped [JsonValue V] (w : Watch V) : Note V → Prop
  | .notified _ id _ => ∀ v ∈ w.drops, toUInt64 v ≠ some id
  | _ => True

def Allowed [JsonValue V] (w : Watch V) (n : Note V) : Prop := FromAccepted w n ∧ NotDropped w n

/-- Everything that happened was as `A` says when it did. -/
def Throughout (A : Watch V → Note V → Prop) (log : List (Note V)) : Prop :=
  ∀ p n, p ++ [n] <+: log → A (watch p n.fd) n

/-- A list of notifications to drop comes on a connection that is authenticated, and each of its
elements converts to `uint64_t`. -/
def ListsConvert [SecurityObjects.JsonDocument V] (t : Texts V) (s : System V) : Event → Prop
  | .readable fd (.text bytes) _ => ∀ n list, s.server.clients[fd]? = some n →
    droppedBy t (cString bytes) = some list →
    n.info.authenticated = true ∧ ∀ v ∈ list, (toUInt64 v).isSome
  | _ => True

/-! ## Logs -/

section Logs

variable {log notes : List (Note V)} {w : Watch V} {n : Note V} {fd k : Int}

theorem watch_append (log notes : List (Note V)) (fd : Int) :
    watch (log ++ notes) fd = (watch log fd).notes fd notes := List.foldl_append

theorem note_of_ne (h : n.fd ≠ k) : w.note k n = w := by
  cases n <;> first | rfl | exact if_neg h

theorem notes_of_ne (h : ∀ n ∈ notes, n.fd = fd) (hk : fd ≠ k) : w.notes k notes = w := by
  induction notes with
  | nil => rfl
  | cons n notes ih =>
    obtain ⟨hn, hnotes⟩ := List.forall_mem_cons.mp h
    rw [Watch.notes, List.foldl_cons, note_of_ne (by rwa [hn])]
    exact ih hnotes

theorem notes_dropList (list : List V) :
    w.notes fd (.dropList fd list :: notes) = Watch.notes fd { w with drops := list } notes := by
  rw [Watch.notes, List.foldl_cons, Watch.note, if_pos rfl]
  rfl

variable {A : Watch V → Note V → Prop}

theorem throughout_nil : Throughout A [] := by
  intro p n hp
  exact absurd (List.prefix_nil.mp hp) (by simp)

theorem throughout_snoc (h : Throughout A log) (hn : A (watch log n.fd) n) :
    Throughout A (log ++ [n]) := by
  intro p m hp
  rcases List.prefix_concat_iff.mp hp with heq | hp
  · obtain ⟨rfl, rfl⟩ := List.append_singleton_inj.mp heq
    exact hn
  · exact h p m hp

/-- The notes of one connection, each as `A` says after those before it. -/
def Follows (A : Watch V → Note V → Prop) (fd : Int) : Watch V → List (Note V) → Prop
  | _, [] => True
  | w, n :: notes => n.fd = fd ∧ A w n ∧ Follows A fd (w.note fd n) notes

theorem Follows.fd_eq (h : Follows A fd w notes) : ∀ n ∈ notes, n.fd = fd := by
  induction notes generalizing w with
  | nil => simp
  | cons n notes ih => exact List.forall_mem_cons.mpr ⟨h.1, ih h.2.2⟩

theorem Follows.mono {B : Watch V → Note V → Prop} (h : Follows A fd w notes)
    (hAB : ∀ w n, A w n → B w n) : Follows B fd w notes := by
  induction notes generalizing w with
  | nil => trivial
  | cons n notes ih => exact ⟨h.1, hAB w n h.2.1, ih h.2.2⟩

theorem throughout_of_follows (h : Throughout A log) (hfollows : Follows A fd (watch log fd) notes) :
    Throughout A (log ++ notes) := by
  induction notes generalizing log with
  | nil => rwa [List.append_nil]
  | cons n notes ih =>
    obtain ⟨hfd, hn, hrest⟩ := hfollows
    rw [List.append_cons]
    refine ih (throughout_snoc h (by rwa [hfd])) ?_
    rwa [watch_append]

theorem watch_notified (log : List (Note V)) (targets : List Int) (id : UInt64) (payload : String) :
    watch (log ++ targets.map fun fd => .notified fd id payload) k = watch log k := by
  rw [watch_append]
  induction targets with
  | nil => rfl
  | cons fd targets ih => exact ih

theorem throughout_notified {targets : List Int} {id : UInt64} {payload : String}
    (h : Throughout A log)
    (htargets : ∀ fd ∈ targets, A (watch log fd) (.notified fd id payload)) :
    Throughout A (log ++ targets.map fun fd => .notified fd id payload) := by
  induction targets generalizing log with
  | nil => rwa [List.map_nil, List.append_nil]
  | cons fd targets ih =>
    obtain ⟨hfd, htargets⟩ := List.forall_mem_cons.mp htargets
    rw [List.map_cons, List.append_cons]
    refine ih (throughout_snoc h hfd) fun k hk => ?_
    rw [watch_append]
    exact htargets k hk

end Logs

/-! ## Frames -/

section Frames

variable [SecurityObjects.JsonDocument V] (t : Texts V) {fd : Int} {c : ClientInfo} {w : Watch V}
  {text : String}

def Known (c : ClientInfo) (w : Watch V) : Prop := c.authenticated = true → w.accepted = true

def Heeds (c : ClientInfo) (w : Watch V) : Prop :=
  ∀ v ∈ w.drops, ∀ id, toUInt64 v = some id → id ∈ c.filter

structure Passes (fd : Int) (w : Watch V) (r : ClientInfo × List (Note V) × Exit) :
    Prop where
  follows : Follows Allowed fd w r.2.1
  known : Known r.1 (w.notes fd r.2.1)
  drops : (w.notes fd r.2.1).drops = w.drops

theorem onToken_passes (h : Known c w) (text : String) (o : Outcome) :
    Passes fd w (onToken t fd c text o) := by
  unfold onToken
  split
  · split
    · exact ⟨trivial, h, rfl⟩
    · exact ⟨by simp [Follows, Note.fd, Allowed, FromAccepted, NotDropped], by simp [Known, Watch.notes, Watch.note],
        by simp [Watch.notes, Watch.note]⟩
    · exact ⟨by simp [Follows, Note.fd, Allowed, FromAccepted, NotDropped], h, rfl⟩
  · exact ⟨by simp [Follows, Note.fd, Allowed, FromAccepted, NotDropped], h, rfl⟩

omit [SecurityObjects.JsonDocument V] in
theorem onToken_filter (c : ClientInfo) (text : String) (o : Outcome) :
    (onToken t fd c text o).1.filter = c.filter := by
  unfold onToken
  split
  · split <;> rfl
  · rfl

theorem onProcess_passes (h : w.accepted = true) (processor : Bool) (o : Outcome) :
    Passes fd w (c, onProcess processor fd o) := by
  unfold onProcess
  split
  · split
    · exact ⟨by simp [Follows, Note.fd, Allowed, FromAccepted, NotDropped, h], fun _ => h, rfl⟩
    · exact ⟨by simp [Follows, Note.fd, Allowed, FromAccepted, NotDropped, h], fun _ => h, rfl⟩
  · exact ⟨by simp [Follows, Note.fd, Allowed, FromAccepted, NotDropped], fun _ => h, rfl⟩

theorem onDropList_authenticated (c : ClientInfo) (list : List V) :
    (onDropList c list).1.authenticated = c.authenticated := by
  unfold onDropList
  split <;> rfl

theorem mem_onDropList {list : List V} (h : ∀ v ∈ list, (toUInt64 v).isSome) {v : V} {id : UInt64}
    (hv : v ∈ list) (hid : toUInt64 v = some id) : id ∈ (onDropList c list).1.filter := by
  have hmem := mem_readList h hv hid
  unfold onDropList
  split <;> rename_i hread <;> rw [hread] at hmem
  · exact List.mem_mergeSort.mpr hmem
  · exact hmem

theorem onCommand_passes (h : Known c w) (hc : c.authenticated = true) (processor : Bool)
    (text : String) (o : Outcome) : Passes fd w (onCommand t processor fd c text o) := by
  unfold onCommand
  split
  · exact ⟨trivial, h, rfl⟩
  · split
    · refine ⟨trivial, fun hauth => ?_, rfl⟩
      rw [onDropList_authenticated] at hauth
      exact h hauth
    · exact onProcess_passes (h hc) processor o

theorem onText_passes (fd : Int) (h : Known c w) (processor : Bool) (text : String) (o : Outcome) :
    Passes fd w (onText t processor fd c text o) := by
  unfold onText
  split
  · rename_i hc
    exact onCommand_passes t h hc processor text o
  · exact onToken_passes t h text o

theorem onText_filter (hnone : droppedBy t text = none) (processor : Bool) (o : Outcome) :
    (onText t processor fd c text o).1.filter = c.filter := by
  unfold onText
  split
  · unfold onCommand
    split
    · rfl
    · rename_i obj hobj
      rw [droppedBy, hobj, Option.bind_some] at hnone
      rw [hnone]
  · exact onToken_filter t c text o

theorem onText_list {list : List V} (hsome : droppedBy t text = some list)
    (hc : c.authenticated = true) (processor : Bool) (o : Outcome) :
    (onText t processor fd c text o).1 = (onDropList c list).1 := by
  obtain ⟨obj, hobj, hlist⟩ := Option.bind_eq_some_iff.mp hsome
  simp only [onText, hc, if_true, onCommand, hobj, hlist]

theorem onFrame_follows (fd : Int) (h : Known c w) (processor : Bool) (o : Outcome) (frame : Frame) :
    Follows Allowed fd w (onFrame t processor fd c o frame).2.1 ∧
      Known (onFrame t processor fd c o frame).1
        (w.notes fd (onFrame t processor fd c o frame).2.1) := by
  cases frame with
  | throws | empty | close | pong | other => exact ⟨trivial, h⟩
  | ping => exact ⟨by simp [onFrame, Follows, Note.fd, Allowed, FromAccepted, NotDropped], h⟩
  | text bytes =>
    simp only [onFrame]
    cases droppedBy t (cString bytes) with
    | none =>
      have hpasses := onText_passes t fd h processor (cString bytes) o
      exact ⟨hpasses.follows, hpasses.known⟩
    | some list =>
      have hpasses := onText_passes (w := { w with drops := list }) t fd h processor (cString bytes) o
      rw [Option.toList_some, List.map_singleton, List.singleton_append, notes_dropList]
      refine ⟨⟨rfl, ⟨trivial, trivial⟩, ?_⟩, hpasses.known⟩
      rw [Watch.note, if_pos rfl]
      exact hpasses.follows

theorem onFrame_fd (processor : Bool) (o : Outcome) (frame : Frame) :
    ∀ n ∈ (onFrame t processor fd c o frame).2.1, n.fd = fd :=
  (onFrame_follows (w := { accepted := true }) t fd (fun _ => rfl) processor o frame).1.fd_eq

theorem onFrame_heeds (hknown : Known c w) (h : Heeds c w) (processor : Bool) (o : Outcome)
    {frame : Frame} (hlists : ∀ bytes list, frame = .text bytes →
      droppedBy t (cString bytes) = some list →
      c.authenticated = true ∧ ∀ v ∈ list, (toUInt64 v).isSome) :
    Heeds (onFrame t processor fd c o frame).1
      (w.notes fd (onFrame t processor fd c o frame).2.1) := by
  cases frame with
  | throws | empty | close | pong | other | ping => exact h
  | text bytes =>
    simp only [onFrame]
    cases hlist : droppedBy t (cString bytes) with
    | none =>
      intro v hv id hid
      rw [onText_filter t hlist]
      have hdrops := (onText_passes t fd hknown processor (cString bytes) o).drops
      rw [Option.toList_none, List.map_nil, List.nil_append, hdrops] at hv
      exact h v hv id hid
    | some list =>
      obtain ⟨hc, hconvert⟩ := hlists bytes list rfl hlist
      have hdrops := (onText_passes (w := { w with drops := list }) t fd hknown processor
        (cString bytes) o).drops
      intro v hv id hid
      rw [Option.toList_some, List.map_singleton, List.singleton_append, notes_dropList,
        hdrops] at hv
      rw [onText_list t hlist hc]
      exact mem_onDropList hconvert hv hid

end Frames

/-! ## Steps -/

section Steps

variable {P : ClientInfo → Watch V → Prop}

/-- `P` holds between each entry of the table and what was observed of its connection. -/
def Tracks (P : ClientInfo → Watch V → Prop) (s : Server) (log : List (Note V)) : Prop :=
  ∀ fd n, s.clients[fd]? = some n → P n.info (watch log fd)

section Bodies

variable {s : Server} {log notes : List (Note V)} {fd : Int} {n : Node}

theorem tracks_settle (h : Tracks P s log) (info : ClientInfo) (pushed : Bool)
    (hnotes : ∀ m ∈ notes, m.fd = fd) (hinfo : P info ((watch log fd).notes fd notes)) :
    Tracks P (s.settle fd n info pushed) (log ++ notes) := by
  intro k m hm
  rw [getElem?_settle] at hm
  rw [watch_append]
  split at hm
  · rename_i hk
    cases hm
    rwa [← hk]
  · rename_i hk
    rw [notes_of_ne hnotes hk]
    exact h k m hm

theorem tracks_newClient (h : Tracks P s log) {id userName : String}
    (hnew : P { id, userName, socketRegistered := true } {}) (added : Bool) :
    Tracks P (newClient (V := V) s fd id userName added).1
      (log ++ (newClient s fd id userName added).2) := by
  cases added with
  | false => rwa [newClient, if_neg (by simp), List.append_nil]
  | true =>
    intro k m hm
    simp only [newClient, if_true, Std.ExtTreeMap.getElem?_insert, Std.compare_eq_iff_eq] at hm ⊢
    rw [watch_append]
    split at hm
    · rename_i hk
      cases hm
      rwa [show (watch log k).notes k [.connected fd] = {} from if_pos hk]
    · rename_i hk
      have hnotes : ∀ note ∈ [Note.connected (V := V) fd], note.fd = fd := by simp [Note.fd]
      rw [notes_of_ne hnotes hk]
      exact h k m hm

theorem tracks_onSocketError (h : Tracks P s log)
    (hderegistered : ∀ n w, P n.info w → P (deregistered n) w) (o : Outcome) :
    Tracks P (onSocketError s fd o) log := by
  unfold onSocketError
  cases hn : s.clients[fd]? with
  | none => exact h
  | some n =>
    simp only [endConnection_eq]
    rw [← List.append_nil log]
    exact tracks_settle h _ _ (by simp) (hderegistered n _ (h fd n hn))

theorem tracks_onSocketReadable [SecurityObjects.JsonDocument V] (t : Texts V) (h : Tracks P s log)
    (hderegistered : ∀ n w, P n.info w → P (deregistered n) w) (frame : Frame) (o : Outcome)
    (hframe : ∀ n, s.clients[fd]? = some n → P n.info (watch log fd) →
      P (onFrame t s.processor fd n.info o frame).1
        ((watch log fd).notes fd (onFrame t s.processor fd n.info o frame).2.1)) :
    Tracks P (onSocketReadable t s fd frame o).1 (log ++ (onSocketReadable t s fd frame o).2) := by
  unfold onSocketReadable
  cases hn : s.clients[fd]? with
  | none => rwa [List.append_nil]
  | some n =>
    have hinfo := hframe n hn (h fd n hn)
    simp only [leave_eq]
    refine tracks_settle h _ _ (onFrame_fd t s.processor o frame) ?_
    split
    · exact hinfo
    · exact hderegistered ⟨n.node, _⟩ _ hinfo

theorem getElem?_of_eraseAll {clients erased : ClientList} {l : List Iterator}
    (h : eraseAll clients l = some erased) (hn : erased[fd]? = some n) :
    clients[fd]? = some n := by
  induction l generalizing clients with
  | nil => rwa [Option.some.inj h]
  | cons i l ih =>
    obtain ⟨-, h⟩ := Option.ite_none_right_eq_some.mp h
    have hrest := ih h
    rw [Std.ExtTreeMap.getElem?_erase] at hrest
    split at hrest
    · cases hrest
    · exact hrest

theorem tracks_clean {u : Server} (h : Tracks P s log) (hu : clean s = some u) :
    Tracks P u log := by
  obtain ⟨erased, herased, rfl⟩ := Option.map_eq_some_iff.mp hu
  exact fun fd n hn => h fd n (getElem?_of_eraseAll herased hn)

theorem tracks_stop (h : Tracks P s log) : Tracks P (stop s) log := by
  unfold stop
  split
  · intro k m hm
    cases hm.symm.trans Std.ExtTreeMap.getElem?_empty
  · exact h

/-- The notifications of a call, to connections that receive them. -/
def Sends (s : Server) (id : UInt64) (payload : String) (notes : List (Note V)) : Prop :=
  ∃ targets : List Int, notes = targets.map (fun fd => .notified fd id payload) ∧
    ∀ fd ∈ targets, ∃ n, s.clients[fd]? = some n ∧ receives id n.info = true

theorem sends_sendToUser (s : Server) (userName : String) (id : UInt64) (payload : String)
    (wrote : Bool) : Sends (V := V) s id payload (sendToUser s userName id payload wrote).2 := by
  unfold sendToUser
  split
  · exact ⟨[], rfl, by simp⟩
  · rename_i fd n hfind
    split
    · rename_i hreceives
      have hmem := List.mem_of_find?_eq_some hfind
      refine ⟨[fd], rfl, fun k hk => ?_⟩
      rw [List.mem_singleton.mp hk]
      exact ⟨n, Std.ExtTreeMap.mem_toList_iff_getElem?_eq_some.mp hmem, hreceives⟩
    · exact ⟨[], rfl, by simp⟩

theorem sends_sendToAll (s : Server) (id : UInt64) (payload : String) :
    Sends (V := V) s id payload (sendToAll s id payload) := by
  refine ⟨(s.clients.toList.filter fun p => receives id p.2.info).map (·.1), ?_, ?_⟩
  · rw [sendToAll, List.map_map]
    rfl
  · intro fd hfd
    obtain ⟨⟨k, n⟩, hp, rfl⟩ := List.mem_map.mp hfd
    obtain ⟨hmem, hreceives⟩ := List.mem_filter.mp hp
    exact ⟨n, Std.ExtTreeMap.mem_toList_iff_getElem?_eq_some.mp hmem, hreceives⟩

theorem tracks_sends {id : UInt64} {payload : String} (h : Tracks P s log)
    (hsends : Sends s id payload notes) : Tracks P s (log ++ notes) := by
  obtain ⟨targets, rfl, -⟩ := hsends
  intro fd n hn
  rw [watch_notified]
  exact h fd n hn

theorem throughout_sends {A : Watch V → Note V → Prop} {id : UInt64} {payload : String}
    (h : Throughout A log) (hsends : Sends s id payload notes)
    (hA : ∀ fd n, s.clients[fd]? = some n → receives id n.info = true →
      A (watch log fd) (.notified fd id payload)) : Throughout A (log ++ notes) := by
  obtain ⟨targets, rfl, htargets⟩ := hsends
  refine throughout_notified h fun fd hfd => ?_
  obtain ⟨n, hn, hreceives⟩ := htargets fd hfd
  exact hA fd n hn hreceives

end Bodies

variable [SecurityObjects.JsonDocument V] (t : Texts V) {s u : System V} {e : Event}

theorem tracks_step (hnew : ∀ id userName, P { id, userName, socketRegistered := true } {})
    (hderegistered : ∀ n w, P n.info w → P (deregistered n) w)
    (hframe : ∀ fd frame o n, e = .readable fd frame o → s.server.clients[fd]? = some n →
      P n.info (watch s.log fd) →
      P (onFrame t s.server.processor fd n.info o frame).1
        ((watch s.log fd).notes fd (onFrame t s.server.processor fd n.info o frame).2.1))
    (h : Tracks P s.server s.log) (hu : step t s e = some u) : Tracks P u.server u.log := by
  cases e with
  | start | setProcessor =>
    cases hu
    exact h
  | stopped =>
    obtain ⟨-, hu⟩ := Option.ite_none_right_eq_some.mp hu
    cases hu
    exact h
  | newClient fd id userName added =>
    cases hu
    exact tracks_newClient h (hnew id userName) added
  | readable fd frame o =>
    cases hu
    exact tracks_onSocketReadable t h hderegistered frame o fun n => hframe fd frame o n rfl
  | error fd o | shutdown fd o =>
    cases hu
    exact tracks_onSocketError h hderegistered o
  | clean =>
    obtain ⟨v, hv, rfl⟩ := Option.map_eq_some_iff.mp hu
    exact tracks_clean h hv
  | stop =>
    cases hu
    exact tracks_stop h
  | sendToUser userName id payload wrote =>
    cases hu
    exact tracks_sends h (sends_sendToUser s.server userName id payload wrote)
  | sendToAll id payload =>
    cases hu
    exact tracks_sends h (sends_sendToAll s.server id payload)

theorem known_step (h : Tracks Known s.server s.log) (hu : step t s e = some u) :
    Tracks Known u.server u.log := by
  refine tracks_step t (fun _ _ => nofun) (fun _ _ hknown => hknown) ?_ h hu
  intro fd frame o n _ _ hknown
  exact (onFrame_follows t fd hknown s.server.processor o frame).2

theorem heeds_step (hknown : Tracks Known s.server s.log) (h : Tracks Heeds s.server s.log)
    (hlists : ListsConvert t s e) (hu : step t s e = some u) : Tracks Heeds u.server u.log := by
  refine tracks_step t (fun _ _ => nofun) (fun _ _ hheeds => hheeds) ?_ h hu
  rintro fd frame o n rfl hn hheeds
  refine onFrame_heeds t (hknown fd n hn) hheeds s.server.processor o ?_
  rintro bytes list rfl hlist
  exact hlists n list hn hlist

theorem throughout_step {A : Watch V → Note V → Prop} (hA : ∀ w n, Allowed w n → A w n)
    (hsends : ∀ fd n id payload, s.server.clients[fd]? = some n → receives id n.info = true →
      A (watch s.log fd) (.notified fd id payload))
    (hknown : Tracks Known s.server s.log) (h : Throughout A s.log) (hu : step t s e = some u) :
    Throughout A u.log := by
  cases e with
  | start | setProcessor | error | shutdown | stop =>
    cases hu
    exact h
  | stopped =>
    obtain ⟨-, hu⟩ := Option.ite_none_right_eq_some.mp hu
    cases hu
    exact h
  | clean =>
    obtain ⟨v, -, rfl⟩ := Option.map_eq_some_iff.mp hu
    exact h
  | newClient fd id userName added =>
    cases hu
    cases added with
    | false =>
      rw [System.after, newClient, if_neg (by simp), List.append_nil]
      exact h
    | true => exact throughout_snoc h (hA _ _ ⟨trivial, trivial⟩)
  | readable fd frame o =>
    cases hu
    simp only [System.after, onSocketReadable]
    cases hn : s.server.clients[fd]? with
    | none => exact (List.append_nil s.log).symm ▸ h
    | some n =>
      have hfollows := (onFrame_follows t fd (hknown fd n hn) s.server.processor o frame).1
      exact throughout_of_follows h (hfollows.mono hA)
  | sendToUser userName id payload wrote =>
    cases hu
    exact throughout_sends h (sends_sendToUser s.server userName id payload wrote)
      fun fd n hn hreceives => hsends fd n id payload hn hreceives
  | sendToAll id payload =>
    cases hu
    exact throughout_sends h (sends_sendToAll s.server id payload)
      fun fd n hn hreceives => hsends fd n id payload hn hreceives

end Steps

/-! ## Runs -/

section Runs

theorem tracks_empty (P : ClientInfo → Watch V → Prop) :
    Tracks P ({} : System V).server ({} : System V).log := by
  intro fd n hn
  cases hn.symm.trans Std.ExtTreeMap.getElem?_empty

variable [SecurityObjects.JsonDocument V] (t : Texts V)

theorem always_accepted (es : List Event) :
    Always (step t) (fun s => Throughout FromAccepted s.log) {} es := by
  have hinvariant : Always (step t)
      (fun s => Tracks Known s.server s.log ∧ Throughout FromAccepted s.log) {} es := by
    refine always_of_step ⟨tracks_empty Known, throughout_nil⟩ ?_ es
    rintro s e u ⟨hknown, h⟩ hu
    refine ⟨known_step t hknown hu, ?_⟩
    refine throughout_step t (fun _ _ hallowed => hallowed.1) ?_ hknown h hu
    intro fd n id payload hn hreceives
    exact hknown fd n hn (receives_iff.mp hreceives).2
  exact hinvariant.imp fun _ h => h.2

/-- Where the lists of notifications to drop convert, and come on connections that are
authenticated, nothing goes out to a connection that was not accepted, nor what it has dropped. -/
theorem notified_as_asked (es : List Event) (h : Steps (step t) (ListsConvert t) {} es) :
    Always (step t) (fun s => Throughout Allowed s.log) {} es := by
  have hinvariant : Always (step t)
      (fun s => Tracks Heeds s.server s.log ∧ Throughout Allowed s.log) {} es := by
    refine always_of_guard (J := fun s => Tracks Known s.server s.log) (G := ListsConvert t)
      (tracks_empty Known) ⟨tracks_empty Heeds, throughout_nil⟩
      (fun _ _ _ h hu => known_step t h hu) ?_ h
    rintro s e u hknown ⟨hheeds, hallowed⟩ hlists hu
    refine ⟨heeds_step t hknown hheeds hlists hu, ?_⟩
    refine throughout_step t (fun _ _ h => h) ?_ hknown hallowed hu
    intro fd n id payload hn hreceives
    obtain ⟨hfilter, hauth⟩ := receives_iff.mp hreceives
    exact ⟨hknown fd n hn hauth, fun v hv hid => hfilter (hheeds fd n hn v hv id hid)⟩
  exact hinvariant.imp fun _ h => h.2

end Runs

/-! ## A client that drops notifications -/

section Examples

/-- The parser knows one text, which is a list of notifications to drop. -/
def listOf (text : String) (list : List SecurityObjects.Node) : Texts SecurityObjects.Node where
  parse s :=
    if s = text then some (JsonObject.ofFields [("drop-notifications", .array list)]) else none
  welcome := ""

/-- A client is accepted, sends its list, and a notification of type 5 goes out. -/
def dropping (text : String) : List Event :=
  [.newClient 3 "id" "" true,
   .readable 3 (.text "token:t") { isAuthorized := fun _ info => (info, some true) },
   .readable 3 (.text text) {}, .sendToAll 5 "payload"]

def dropFive : String := "\x7b\"drop-notifications\":[5]\x7d"

theorem notified_as_asked_list :
    Always (step (listOf dropFive [.number 5])) (fun s => Throughout Allowed s.log) {}
      (dropping dropFive) := by
  refine notified_as_asked (listOf dropFive [.number 5]) (dropping dropFive) ?_
  refine steps_cons.mpr fun s hs => ⟨trivial, ?_⟩
  cases hs
  refine steps_cons.mpr fun s hs => ⟨fun n list _ hlist => ?_, ?_⟩
  · -- The token is no list.
    cases hlist.symm.trans rfl
  cases hs
  refine steps_cons.mpr fun s hs => ⟨fun n list hn hlist => ⟨?_, ?_⟩, ?_⟩
  · have hauth := congrArg (Option.map fun m : Node => m.info.authenticated) hn
    exact (Option.some.inj hauth).symm
  · obtain rfl : [.number 5] = list := Option.some.inj hlist
    simp [toUInt64]
  cases hs
  exact steps_cons.mpr fun s hs => ⟨trivial, steps_nil _ s⟩

def dropXAndFive : String := "\x7b\"drop-notifications\":[\"x\",5]\x7d"

/-- The first element of the list ends its conversion, and with it the connection, which gets what
the second names until it is removed. -/
theorem dropped_notified :
    ¬ ∀ (t : Texts SecurityObjects.Node) (es : List Event),
      Always (step t) (fun s => Throughout Allowed s.log) {} es := by
  intro h
  have hlog := (h (listOf dropXAndFive [.text "x", .number 5]) (dropping dropXAndFive)).here rfl
  have hsent := hlog _ (.notified 3 5 "payload") (List.prefix_refl _)
  have hlisted : .number 5 ∈ [SecurityObjects.Node.text "x", .number 5] :=
    List.mem_cons_of_mem _ List.mem_cons_self
  exact hsent.2 (.number 5) hlisted rfl

end Examples

end Owls.WebSockets
