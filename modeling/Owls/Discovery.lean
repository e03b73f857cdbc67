import Owls.AuthClient
import Owls.Commands
import Owls.SimStats

/-!
# The services on the bus

`MicroService::BusMessageReceived`: the map of the services that have announced themselves and
have not been silent for more than a minute.
-/

open Machine

namespace Owls.MicroService

open JsonValue

variable {V : Type} [JsonValue V]

/-! ## The function -/

abbrev Services := Std.ExtTreeMap String MicroServiceMeta

structure State where
  services : Services := ∅
  auth : AuthClient.State := {}

def announcementFields : List String :=
  ["type", "publicEndPoint", "privateEndPoint", "version", "key"]

/-- `none`: a conversion throws. -/
def newService (o : JsonObject V) (id now : UInt64) : Option MicroServiceMeta := do
  let type ← getField toText o "type"
  let privateEndPoint ← getField toText o "privateEndPoint"
  let publicEndPoint ← getField toText o "publicEndPoint"
  let accessKey ← getField toText o "key"
  let version ← getField toText o "version"
  return { id, type := type.toLower, privateEndPoint, publicEndPoint, accessKey, version,
           lastUpdate := now }

/-- A join, a keep-alive or a leave with all its fields. -/
def announce (s : State) (o : JsonObject V) (id : UInt64) (event : String) (now : UInt64) :
    Option State := do
  let privateEndPoint ← getField toText o "privateEndPoint"
  if event = "keep-alive" ∧ privateEndPoint ∈ s.services then
    let refresh (service : MicroServiceMeta) := { service with lastUpdate := now }
    return { s with services := s.services.modify privateEndPoint refresh }
  else if event = "leave" then
    return { s with services := s.services.erase privateEndPoint }
  else
    let service ← newService o id now
    return { s with services := s.services.insert privateEndPoint service }

/-- What the message itself does. `own` is the id of this process. -/
def receive (own : UInt64) (s : State) (o : JsonObject V) (now : UInt64) : Option State :=
  if hasField o "id" && hasField o "event" then do
    let id ← getField toUInt64 o "id"
    let event ← getField toText o "event"
    if id = own then return s
    else if event = "join" ∨ event = "keep-alive" ∨ event = "leave" then
      if announcementFields.all (hasField o) then announce s o id event now else return s
    else if event = "remove-token" then
      if hasField o "token" then
        let token ← getField toText o "token"
        return { s with auth := AuthClient.removedCachedToken s.auth token }
      else return s
    else return s
  else return s

/-- The loop over `Services_` at the end. -/
def sweep (services : Services) (now : UInt64) : Services :=
  services.filter fun _ service => !(now - service.lastUpdate > 60)

/-- `payload` is `none` when it is not a JSON object. The result is `none` for an exception: the
map is as it was, since nothing throws after a change. -/
def busMessageReceived (own : UInt64) (s : State) (payload : Option (JsonObject V))
    (now later : UInt64) : Option State := do
  let o ← payload
  let s ← receive own s o now
  return { s with services := sweep s.services later }

/-! ## The bus -/

/-- `now` is the clock when the message changes the map, and `later` when the loop reads it. -/
structure Message (V : Type) where
  payload : Option (JsonObject V)
  now : UInt64
  later : UInt64

structure Bus (V : Type) where
  state : State := {}
  clock : UInt64 := 0
  /-- All messages, the latest first. -/
  seen : List (Message V) := []
  /-- The messages that have raised no exception. -/
  processed : List (Message V) := []
  /-- The last message has raised an exception. -/
  thrown : Bool := false

/-- The clock does not go back. -/
def step (own : UInt64) (b : Bus V) (m : Message V) : Option (Bus V) :=
  if b.clock ≤ m.now ∧ m.now ≤ m.later then
    match busMessageReceived own b.state m.payload m.now m.later with
    | none => some { b with clock := m.later, seen := m :: b.seen, thrown := true }
    | some state =>
      some { state, clock := m.later, seen := m :: b.seen, processed := m :: b.processed,
             thrown := false }
  else none

/-! ## What the messages say -/

/-- The private end point and the event of a complete announcement of another service. -/
def announcement (own : UInt64) (m : Message V) : Option (String × String) := do
  let o ← m.payload
  let id ← getField toUInt64 o "id"
  let event ← getField toText o "event"
  let privateEndPoint ← getField toText o "privateEndPoint"
  if id ≠ own ∧ event ∈ ["join", "keep-alive", "leave"] ∧
      ∀ f ∈ announcementFields, hasField o f then
    return (privateEndPoint, event)
  else none

/-- The most recent announcement of an end point: its event, and when it was received. -/
def latest (own : UInt64) (e : String) : List (Message V) → Option (String × UInt64)
  | [] => none
  | m :: ms =>
    match announcement own m with
    | some (e', event) => if e' = e then some (event, m.now) else latest own e ms
    | none => latest own e ms

/-- The end points of the map are those whose most recent announcement among `ms` is not a leave,
and is at most 60 seconds old. -/
def Exact (own : UInt64) (ms : List (Message V)) (b : Bus V) : Prop :=
  ∀ e, e ∈ b.state.services ↔ ∃ event time, latest own e ms = some (event, time) ∧
    event ≠ "leave" ∧ b.clock.toNat ≤ time.toNat + 60

/-! ## One message -/

variable {own : UInt64} {s v : State} {o : JsonObject V} {m : Message V} {e event : String}
  {id now later : UInt64}

/-- What is left of a map by an announcement. -/
structure Applied (e event : String) (now : UInt64) (services after : Services) : Prop where
  others : ∀ e', e' ≠ e → after[e']? = services[e']?
  leave : event = "leave" → after[e]? = none
  here : event ≠ "leave" → ∃ service, after[e]? = some service ∧ service.lastUpdate = now

theorem newService_lastUpdate {service : MicroServiceMeta}
    (h : newService o id now = some service) : service.lastUpdate = now := by
  unfold newService at h
  simp only [Option.bind_eq_bind, Option.bind_eq_some_iff] at h
  obtain ⟨_, -, _, -, _, -, _, -, _, -, h⟩ := h
  cases h
  rfl

theorem announce_applied (h : announce s o id event now = some v) :
    ∃ e, getField toText o "privateEndPoint" = some e ∧
      Applied e event now s.services v.services := by
  unfold announce at h
  simp only [Option.bind_eq_bind, Option.bind_eq_some_iff] at h
  obtain ⟨e, he, h⟩ := h
  refine ⟨e, he, ?_⟩
  split at h
  · rename_i hknown
    cases h
    obtain ⟨service, hservice⟩ := Option.isSome_iff_exists.mp
      (Std.ExtTreeMap.isSome_getElem?_iff_mem.mpr hknown.2)
    refine ⟨fun e' hne => ?_, fun hleave => ?_, fun _ => ?_⟩
    · simp [Std.ExtTreeMap.getElem?_modify, hne.symm]
    · exact absurd (hknown.1.symm.trans hleave) (by decide)
    · simp [hservice]
  · split at h
    · rename_i hleave
      cases h
      refine ⟨fun e' hne => ?_, fun _ => ?_, fun hne => absurd hleave hne⟩
      · simp [Std.ExtTreeMap.getElem?_erase, hne.symm]
      · simp
    · rename_i hleave
      obtain ⟨service, hservice, h⟩ := Option.bind_eq_some_iff.mp h
      cases h
      refine ⟨fun e' hne => ?_, fun heq => absurd heq hleave, fun _ => ?_⟩
      · simp [Std.ExtTreeMap.getElem?_insert, hne.symm]
      · exact ⟨service, by simp, newService_lastUpdate hservice⟩

theorem announcement_eq_some (hm : m.payload = some o) :
    announcement own m = some (e, event) ↔ ∃ id, getField toUInt64 o "id" = some id ∧
      getField toText o "event" = some event ∧ getField toText o "privateEndPoint" = some e ∧
      id ≠ own ∧ event ∈ ["join", "keep-alive", "leave"] ∧
      ∀ f ∈ announcementFields, hasField o f := by
  simp only [announcement, hm, Option.bind_eq_bind, Option.bind_some, Option.bind_eq_some_iff]
  constructor
  · rintro ⟨id, hid, event', hevent, e', he, h⟩
    split at h
    · rename_i hcond
      cases h
      exact ⟨id, hid, hevent, he, hcond⟩
    · cases h
  · rintro ⟨id, hid, hevent, he, hcond⟩
    exact ⟨id, hid, event, hevent, e, he, if_pos hcond⟩

theorem receive_applied (hm : m.payload = some o) (h : receive own s o now = some v) :
    match announcement own m with
    | some (e, event) => Applied e event now s.services v.services
    | none => v.services = s.services := by
  -- Whatever is no announcement leaves the map alone.
  have hquiet (hsame : v.services = s.services)
      (hnot : ∀ e event, announcement own m ≠ some (e, event)) :
      match announcement own m with
      | some (e, event) => Applied e event now s.services v.services
      | none => v.services = s.services := by
    split
    · rename_i e event ha
      exact absurd ha (hnot e event)
    · exact hsame
  unfold receive at h
  split at h
  · simp only [Option.bind_eq_bind, Option.bind_eq_some_iff] at h
    obtain ⟨id, hid, event, hevent, h⟩ := h
    have hnot (hcond : id ≠ own → event ∈ ["join", "keep-alive", "leave"] →
        ¬ ∀ f ∈ announcementFields, hasField o f) (e event') :
        announcement own m ≠ some (e, event') := by
      intro ha
      obtain ⟨id', hid', hevent', -, hne, hmem, hfields⟩ := (announcement_eq_some hm).mp ha
      cases hid.symm.trans hid'
      cases hevent.symm.trans hevent'
      exact hcond hne hmem hfields
    split at h
    · rename_i hown
      cases h
      exact hquiet rfl (hnot fun hne => absurd hown hne)
    · rename_i hown
      split at h
      · rename_i hevents
        split at h
        · rename_i hfields
          obtain ⟨e, he, happlied⟩ := announce_applied h
          have ha : announcement own m = some (e, event) := by
            refine (announcement_eq_some hm).mpr ⟨id, hid, hevent, he, hown, ?_, ?_⟩
            · simpa using hevents
            · simpa using hfields
          rw [ha]
          exact happlied
        · rename_i hfields
          cases h
          refine hquiet rfl (hnot fun _ _ hall => hfields ?_)
          simpa using hall
      · rename_i hevents
        have hnone := hnot fun _ hmem => absurd (by simpa using hmem) hevents
        split at h
        · split at h
          · obtain ⟨token, -, h⟩ := Option.bind_eq_some_iff.mp h
            cases h
            exact hquiet rfl hnone
          · cases h
            exact hquiet rfl hnone
        · cases h
          exact hquiet rfl hnone
  · rename_i hfields
    cases h
    refine hquiet rfl fun e event ha => hfields ?_
    obtain ⟨id, hid, hevent, -⟩ := (announcement_eq_some hm).mp ha
    rw [hasField_of_getField hid, hasField_of_getField hevent]
    rfl

theorem getElem?_sweep (services : Services) (now : UInt64) (e : String) :
    (sweep services now)[e]? =
      services[e]?.filter fun service => !(now - service.lastUpdate > 60) :=
  Std.ExtTreeMap.getElem?_filter'

/-! ## The map and the history -/

/-- When the end point was last heard of, unless it has left. -/
def lastHeard (own : UInt64) (e : String) (ms : List (Message V)) : Option UInt64 :=
  (latest own e ms).bind fun p => if p.1 = "leave" then none else some p.2

/-- The entries of the map are the end points heard of, but for some that are too old. -/
structure Tracks (own : UInt64) (ms : List (Message V)) (clock : UInt64) (services : Services) :
    Prop where
  past : ∀ e time, lastHeard own e ms = some time → time ≤ clock
  entry : ∀ e, (services[e]?).map (·.lastUpdate) = lastHeard own e ms ∨
    services[e]? = none ∧ ∃ time, lastHeard own e ms = some time ∧
      time.toNat + 60 < clock.toNat

variable {ms : List (Message V)} {clock : UInt64} {services after : Services}

theorem exact_iff {b : Bus V} : Exact own ms b ↔ ∀ e, e ∈ b.state.services ↔
    ∃ time, lastHeard own e ms = some time ∧ b.clock.toNat ≤ time.toNat + 60 := by
  refine forall_congr' fun e => iff_congr Iff.rfl ?_
  unfold lastHeard
  cases latest own e ms with
  | none => simp
  | some p =>
    obtain ⟨event, time⟩ := p
    by_cases hleave : event = "leave" <;> simp [hleave]

theorem Tracks.mono (h : Tracks own ms clock services) (hle : clock ≤ later) :
    Tracks own ms later services := by
  have hclock := UInt64.le_iff_toNat_le.mp hle
  refine ⟨fun e time ht => UInt64.le_trans (h.past e time ht) hle, fun e => ?_⟩
  refine (h.entry e).imp_right fun ⟨hnone, time, ht, hold⟩ => ⟨hnone, time, ht, ?_⟩
  omega

theorem lastHeard_cons_self (ha : announcement own m = some (e, event)) :
    lastHeard own e (m :: ms) = if event = "leave" then none else some m.now := by
  simp [lastHeard, latest, ha]

theorem lastHeard_cons_of_ne (ha : ∀ event, announcement own m ≠ some (e, event)) :
    lastHeard own e (m :: ms) = lastHeard own e ms := by
  unfold lastHeard
  rw [latest]
  split
  · rename_i e' event hm
    have hne : e' ≠ e := fun heq => ha event (heq ▸ hm)
    rw [if_neg hne]
  · rfl

theorem Tracks.received (h : Tracks own ms clock services) (hle : clock ≤ m.now)
    (hchange : match announcement own m with
      | some (e, event) => Applied e event m.now services after
      | none => after = services) : Tracks own (m :: ms) m.now after := by
  have hmono := h.mono hle
  -- The end points that the message is not about.
  have hother {e : String} (ha : ∀ event, announcement own m ≠ some (e, event))
      (hsame : after[e]? = services[e]?) :
      (∀ time, lastHeard own e (m :: ms) = some time → time ≤ m.now) ∧
      ((after[e]?).map (·.lastUpdate) = lastHeard own e (m :: ms) ∨
        after[e]? = none ∧ ∃ time, lastHeard own e (m :: ms) = some time ∧
          time.toNat + 60 < m.now.toNat) := by
    rw [lastHeard_cons_of_ne ha, hsame]
    exact ⟨hmono.past e, hmono.entry e⟩
  have hall (e : String) : (∀ time, lastHeard own e (m :: ms) = some time → time ≤ m.now) ∧
      ((after[e]?).map (·.lastUpdate) = lastHeard own e (m :: ms) ∨
        after[e]? = none ∧ ∃ time, lastHeard own e (m :: ms) = some time ∧
          time.toNat + 60 < m.now.toNat) := by
    cases ha : announcement own m with
    | none =>
      rw [ha] at hchange
      exact hother (by simp [ha]) (by rw [hchange])
    | some p =>
      obtain ⟨e', event⟩ := p
      rw [ha] at hchange
      by_cases he : e = e'
      · subst he
        rw [lastHeard_cons_self ha]
        by_cases hleave : event = "leave"
        · simp [hleave, hchange.leave hleave]
        · obtain ⟨service, hservice, htime⟩ := hchange.here hleave
          simp [hleave, hservice, htime]
      · refine hother (fun event' ha' => ?_) (hchange.others e he)
        cases ha.symm.trans ha'
        exact he rfl
  exact ⟨fun e => (hall e).1, fun e => (hall e).2⟩

theorem Tracks.swept (h : Tracks own ms clock services) (e : String) :
    (∃ service, services[e]? = some service ∧ (sweep services clock)[e]? = some service ∧
      lastHeard own e ms = some service.lastUpdate ∧
      clock.toNat ≤ service.lastUpdate.toNat + 60) ∨
    ((sweep services clock)[e]? = none ∧
      (∀ time, lastHeard own e ms = some time → time.toNat + 60 < clock.toNat) ∧
      ∀ service, services[e]? = some service → service.lastUpdate.toNat + 60 < clock.toNat) := by
  rw [getElem?_sweep]
  rcases h.entry e with hentry | ⟨hnone, time, ht, hold⟩
  · cases hs : services[e]? with
    | none =>
      rw [hs] at hentry
      exact .inr ⟨rfl, by simp [← hentry], nofun⟩
    | some service =>
      rw [hs, Option.map_some] at hentry
      have hpast := h.past e _ hentry.symm
      have hsub := UInt64.toNat_sub_of_le _ _ hpast
      by_cases hold : clock - service.lastUpdate > 60
      · have hlt : service.lastUpdate.toNat + 60 < clock.toNat := by
          have hold := UInt64.lt_iff_toNat_lt.mp hold
          have hsixty : (60 : UInt64).toNat = 60 := rfl
          omega
        refine .inr ⟨by simp [hold], fun time ht => ?_, fun service' hs' => ?_⟩
        · cases hentry.trans ht
          exact hlt
        · cases hs'
          exact hlt
      · have hle : clock.toNat ≤ service.lastUpdate.toNat + 60 := by
          have hnot := UInt64.le_iff_toNat_le.mp (UInt64.not_lt.mp hold)
          have hsixty : (60 : UInt64).toNat = 60 := rfl
          omega
        exact .inl ⟨service, rfl, by simp [hold], hentry.symm, hle⟩
  · refine .inr ⟨by simp [hnone], fun time' ht' => ?_, fun service hs => ?_⟩
    · cases ht.symm.trans ht'
      exact hold
    · cases hnone.symm.trans hs

theorem Tracks.sweep (h : Tracks own ms clock services) :
    Tracks own ms clock (MicroService.sweep services clock) := by
  refine ⟨h.past, fun e => ?_⟩
  rcases h.swept e with ⟨service, -, hs, ht, -⟩ | ⟨hnone, hold, -⟩
  · exact .inl (by rw [hs, ht, Option.map_some])
  · cases ht : lastHeard own e ms with
    | none => exact .inl (by rw [hnone, Option.map_none])
    | some time => exact .inr ⟨hnone, time, rfl, hold time ht⟩

theorem Tracks.mem_sweep (h : Tracks own ms clock services) (e : String) :
    e ∈ MicroService.sweep services clock ↔
      ∃ time, lastHeard own e ms = some time ∧ clock.toNat ≤ time.toNat + 60 := by
  rw [← Std.ExtTreeMap.isSome_getElem?_iff_mem]
  rcases h.swept e with ⟨service, -, hs, ht, hle⟩ | ⟨hnone, hold, -⟩
  · rw [hs]
    exact iff_of_true rfl ⟨_, ht, hle⟩
  · rw [hnone]
    refine iff_of_false (by simp) ?_
    rintro ⟨time, ht, hle⟩
    have hlt := hold time ht
    omega

/-! ## Runs -/

variable {b u : Bus V}

/-- What holds between messages. -/
structure Kept (own : UInt64) (b : Bus V) : Prop where
  tracks : Tracks own b.processed b.clock b.state.services
  exact : b.thrown = false → Exact own b.processed b

inductive Stepped (own : UInt64) (b : Bus V) (m : Message V) : Bus V → Prop where
  | thrown (hle : b.clock ≤ m.later) :
    Stepped own b m { b with clock := m.later, seen := m :: b.seen, thrown := true }
  | processed {o : JsonObject V} {s : State} (hle : b.clock ≤ m.now) (hlater : m.now ≤ m.later)
      (hm : m.payload = some o) (hs : receive own b.state o m.now = some s) :
    Stepped own b m
      { state := { s with services := sweep s.services m.later }, clock := m.later,
        seen := m :: b.seen, processed := m :: b.processed, thrown := false }

theorem stepped_of_step (hu : step own b m = some u) : Stepped own b m u := by
  unfold step at hu
  split at hu
  · rename_i hclock
    split at hu
    · cases hu
      exact .thrown (UInt64.le_trans hclock.1 hclock.2)
    · rename_i state hstate
      cases hu
      simp only [busMessageReceived, Option.bind_eq_bind, Option.bind_eq_some_iff] at hstate
      obtain ⟨o, hm, s, hs, h⟩ := hstate
      cases h
      exact .processed hclock.1 hclock.2 hm hs
  · cases hu

theorem kept_step (b : Bus V) (m : Message V) (u : Bus V) (h : Kept own b)
    (hu : step own b m = some u) : Kept own u := by
  cases stepped_of_step hu with
  | thrown hle => exact ⟨h.tracks.mono hle, nofun⟩
  | processed hle hlater hm hs =>
    have hafter := (h.tracks.received hle (receive_applied hm hs)).mono hlater
    exact ⟨hafter.sweep, fun _ => exact_iff.mpr hafter.mem_sweep⟩

/-- The message announces nothing: an entry stays as it is, or it is too old. -/
def Ages (own : UInt64) (b : Bus V) (m : Message V) : Prop :=
  announcement own m = none → ∀ u, step own b m = some u →
    ∀ e : String, u.state.services[e]? = b.state.services[e]? ∨
      u.state.services[e]? = none ∧ ∃ service : MicroServiceMeta,
        b.state.services[e]? = some service ∧ service.lastUpdate.toNat + 60 < m.later.toNat

theorem ages_of_kept (h : Kept own b) : Ages own b m := by
  intro ha u hu e
  cases stepped_of_step hu with
  | thrown => exact .inl rfl
  | @processed o s hle hlater hm hs =>
    have hsame := receive_applied hm hs
    rw [ha] at hsame
    have htracks := (h.tracks.mono hle).mono hlater
    simp only [hsame]
    rcases htracks.swept e with ⟨service, hb, hs, -⟩ | ⟨hnone, -, hold⟩
    · exact .inl (hs.trans hb.symm)
    · cases hb : b.state.services[e]? with
      | none => exact .inl hnone
      | some service => exact .inr ⟨hnone, service, rfl, hold service hb⟩

theorem always_kept (own : UInt64) (es : List (Message V)) :
    Always (step own) (Kept own) {} es := by
  refine always_of_step ⟨⟨nofun, fun e => .inl ?_⟩, fun _ e => ?_⟩ kept_step es
  · rw [Std.ExtTreeMap.getElem?_empty]
    rfl
  · simp [latest]

/-- The map holds the end points whose most recent announcement that raised no exception is not a
leave, and is at most 60 seconds old. Messages that announce nothing only let entries age. -/
theorem services_exact (own : UInt64) (es : List (Message V)) :
    Always (step own) (fun b => b.thrown = false → Exact own b.processed b) {} es ∧
    Steps (step own) (Ages own) {} es := by
  have hkept := always_kept own es
  refine ⟨fun p hp t ht => (hkept p hp t ht).exact, fun p m hp t u ht _ => ?_⟩
  exact ages_of_kept (hkept p ((List.prefix_append p [m]).trans hp) t ht)

section Silent

open Commands (Tree)

def joining : JsonObject Tree :=
  .ofFields [("id", .number 2), ("event", .text "join"), ("type", .text "owls"),
    ("publicEndPoint", .text "p"), ("privateEndPoint", .text "e"), ("version", .text "v"),
    ("key", .text "k")]

/-- The second join has a `null` for its type, and the last message is from the process itself. -/
def joinNull : List (Message Tree) :=
  [⟨some joining, 10, 10⟩, ⟨some (Function.update joining "type" (some none)), 20, 20⟩,
   ⟨some (.ofFields [("id", .number 1), ("event", .text "join")]), 75, 75⟩]

/-- A complete announcement may raise an exception, and is then as if it had not come. -/
theorem null_announcement_lost :
    ¬ ∀ es : List (Message Tree),
      Always (step 1) (fun b => b.thrown = false → Exact 1 b.seen b) {} es := by
  intro h
  have hexact := (h joinNull).here rfl rfl
  have hkept := (always_kept 1 joinNull).here rfl
  have hmem := (hexact "e").mpr ⟨"join", 20, by decide, by decide, by decide⟩
  obtain ⟨event, time, hlatest, -, hle⟩ := (hkept.exact rfl "e").mp hmem
  have htime : latest 1 "e" [⟨some joining, 10, 10⟩] = some (event, time) := hlatest
  cases (rfl : latest 1 "e" [⟨some joining, 10, 10⟩] = some ("join", 10)).symm.trans htime
  exact absurd hle (by decide)

end Silent

end Owls.MicroService
