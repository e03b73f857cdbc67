import Owls.Discovery
import Owls.Reports
import Owls.Requests

/-!
# The directory of the services

Every process tells the others what it is: `EventBusManager::run` posts what
`MakeSystemEventMessage` makes. The topic has one partition, so that all read it in one order.
-/

open Machine

namespace Owls.Directory

open JsonValue JsonField MicroService

variable {V : Type} [JsonField V]

/-! ## Announcements -/

/-- What `LoadMyConfig` and the constructor make of a process. -/
structure Process where
  id : UInt64
  name : String
  publicEndPoint : String
  privateEndPoint : String
  version : String
deriving DecidableEq

/-- `Utils::ComputeHash`. -/
abbrev Hash := String → String

variable (computeHash : Hash)

def Process.myHash (p : Process) : String := computeHash p.publicEndPoint

/-- The fields in the order in which they are set. -/
def makeSystemEventMessage (p : Process) (event : String) : List (String × V) :=
  [("event", ofText event), ("id", ofUInt64 p.id), ("type", ofText p.name.toLower),
   ("publicEndPoint", ofText p.publicEndPoint), ("privateEndPoint", ofText p.privateEndPoint),
   ("key", ofText (p.myHash computeHash)), ("version", ofText p.version)]

/-- The entry of a process that was heard of at `now`. -/
def Process.service (p : Process) (now : UInt64) : MicroServiceMeta :=
  { id := p.id, type := p.name.toLower.toLower, privateEndPoint := p.privateEndPoint,
    publicEndPoint := p.publicEndPoint, accessKey := p.myHash computeHash, version := p.version,
    lastUpdate := now }

/-- `GetServices` of a type. -/
def getServices (services : Services) (type : String) : List MicroServiceMeta :=
  (services.toList.map (·.2)).filter fun service => service.type == type.toLower

/-! ## The topic -/

inductive Post (V : Type) where
  | announce (p : Process) (event : String)
  /-- Whatever else comes to the topic. `none`: no JSON object. -/
  | other (payload : Option (JsonObject V))

def Post.payload : Post V → Option (JsonObject V)
  | .announce p event => some (.ofFields (makeSystemEventMessage computeHash p event))
  | .other payload => payload

/-- A post, and when the consumer reads it. -/
structure Heard (V : Type) where
  post : Post V
  now : UInt64
  later : UInt64

def Heard.message (h : Heard V) : Message V := ⟨h.post.payload computeHash, h.now, h.later⟩

/-- The other processes by their private end points, the topic, and one consumer. -/
structure System (V : Type) where
  running : String → Option Process
  log : List (Post V) := []
  /-- The latest first. -/
  heard : List (Heard V) := []
  bus : Bus V := {}

inductive Event (V : Type) where
  /-- `run` begins, at an end point where nothing runs. -/
  | start (p : Process)
  | keepAlive (e : String)
  /-- `run` ends. -/
  | stop (e : String)
  /-- The process ends without a word. -/
  | crash (e : String)
  /-- Anything but the announcement of another process. -/
  | post (payload : Option (JsonObject V))
  | receive (now later : UInt64)

variable (own : UInt64)

def step (s : System V) : Event V → Option (System V)
  | .start p =>
    if (s.running p.privateEndPoint).isNone ∧ p.id ≠ own then
      some { s with
        running := Function.update s.running p.privateEndPoint (some p)
        log := s.log ++ [.announce p "join"] }
    else none
  | .keepAlive e => (s.running e).map fun p =>
    { s with log := s.log ++ [.announce p "keep-alive"] }
  | .stop e => (s.running e).map fun p =>
    { s with
      running := Function.update s.running e none
      log := s.log ++ [.announce p "leave"] }
  | .crash e => (s.running e).map fun _ => { s with running := Function.update s.running e none }
  | .post payload =>
    if (announcement own ⟨payload, 0, 0⟩).isNone then
      some { s with log := s.log ++ [.other payload] }
    else none
  | .receive now later => do
    let post ← s.log[s.heard.length]?
    let h : Heard V := ⟨post, now, later⟩
    let bus ← MicroService.step own s.bus (h.message computeHash)
    return { s with heard := h :: s.heard, bus }

/-! ## Who spoke last -/

def Post.speaks (e : String) : Post V → Option Process
  | .announce p _ => if p.privateEndPoint = e then some p else none
  | .other _ => none

/-- The process that was the last to announce itself at the end point. -/
def holder (e : String) (log : List (Post V)) : Option Process :=
  (log.filterMap (Post.speaks e)).getLast?

/-- What a post that was heard says of the end point. -/
def Heard.said (e : String) (h : Heard V) : Option (Process × String × UInt64) :=
  match h.post with
  | .announce p event => if p.privateEndPoint = e then some (p, event, h.now) else none
  | .other _ => none

/-- What the consumer has heard of the end point last, and when. -/
def latestPost (e : String) (heard : List (Heard V)) : Option (Process × String × UInt64) :=
  (heard.filterMap (Heard.said e)).head?

def entry (clock : UInt64) : Option (Process × String × UInt64) → Option MicroServiceMeta
  | none => none
  | some (p, event, time) =>
    if event = "leave" ∨ time.toNat + 60 < clock.toNat then none
    else some (p.service computeHash time)

def events : List String := ["join", "keep-alive", "leave"]

variable {computeHash own} {s t : System V} {e event : String} {p : Process} {now later : UInt64}
  {state : State} {ev : Event V}

/-! ## One announcement -/

/-- What the announcement makes of the map, before the loop at the end. -/
def stored (computeHash : Hash) (p : Process) (event : String) (now : UInt64)
    (services : Services) : Services :=
  if event = "keep-alive" ∧ p.privateEndPoint ∈ services then
    services.modify p.privateEndPoint fun service => { service with lastUpdate := now }
  else if event = "leave" then services.erase p.privateEndPoint
  else services.insert p.privateEndPoint (p.service computeHash now)

theorem getField_ofText {fields : List (String × V)} {field text : String}
    (h : fields.lookup field = some (ofText text)) :
    getField toText (JsonObject.ofFields fields) field = some text := by
  rw [getField, JsonObject.ofFields, h]
  exact toText_ofText text

theorem getField_ofUInt64 {fields : List (String × V)} {field : String} {n : UInt64}
    (h : fields.lookup field = some (ofUInt64 n)) :
    getField toUInt64 (JsonObject.ofFields fields) field = some n := by
  rw [getField, JsonObject.ofFields, h]
  exact toUInt64_ofUInt64 n

theorem newService_announce (p : Process) (event : String) (now : UInt64) :
    newService (JsonObject.ofFields (V := V) (makeSystemEventMessage computeHash p event)) p.id
      now = some (p.service computeHash now) := by
  unfold newService
  refine Option.bind_eq_some_iff.mpr ⟨_, getField_ofText rfl, ?_⟩
  refine Option.bind_eq_some_iff.mpr ⟨_, getField_ofText rfl, ?_⟩
  refine Option.bind_eq_some_iff.mpr ⟨_, getField_ofText rfl, ?_⟩
  refine Option.bind_eq_some_iff.mpr ⟨_, getField_ofText rfl, ?_⟩
  refine Option.bind_eq_some_iff.mpr ⟨_, getField_ofText rfl, ?_⟩
  rfl

theorem fields_announce (p : Process) (event : String) :
    announcementFields.all (hasField (JsonObject.ofFields (V := V)
      (makeSystemEventMessage computeHash p event))) = true := rfl

theorem receive_announce (hown : p.id ≠ own) (hevent : event ∈ events) :
    receive own state (JsonObject.ofFields (V := V) (makeSystemEventMessage computeHash p event))
      now = some { state with services := stored computeHash p event now state.services } := by
  have hthree : event = "join" ∨ event = "keep-alive" ∨ event = "leave" := by
    simpa [events] using hevent
  have hprivate : getField toText (JsonObject.ofFields (V := V)
      (makeSystemEventMessage computeHash p event)) "privateEndPoint" = some p.privateEndPoint :=
    getField_ofText rfl
  unfold receive
  refine (if_pos (by rfl)).trans ?_
  refine Option.bind_eq_some_iff.mpr ⟨p.id, getField_ofUInt64 rfl, ?_⟩
  refine Option.bind_eq_some_iff.mpr ⟨event, getField_ofText rfl, ?_⟩
  rw [if_neg hown, if_pos hthree, if_pos (fields_announce p event)]
  unfold announce stored
  refine Option.bind_eq_some_iff.mpr ⟨p.privateEndPoint, hprivate, ?_⟩
  split
  · rfl
  · split
    · rfl
    · exact Option.bind_eq_some_iff.mpr ⟨_, newService_announce p event now, rfl⟩

theorem announcement_announce (hown : p.id ≠ own) (hevent : event ∈ events) (now later : UInt64) :
    announcement own (Heard.message computeHash (⟨.announce p event, now, later⟩ : Heard V)) =
      some (p.privateEndPoint, event) := by
  refine (announcement_eq_some rfl).mpr ⟨p.id, getField_ofUInt64 rfl, getField_ofText rfl,
    getField_ofText rfl, hown, hevent, ?_⟩
  exact List.all_eq_true.mp (fields_announce p event)

theorem announcement_other {payload : Option (JsonObject V)}
    (h : announcement own ⟨payload, 0, 0⟩ = none) (now later : UInt64) :
    announcement own (Heard.message computeHash (⟨.other payload, now, later⟩ : Heard V)) = none :=
  h

/-! ## What is in the log -/

/-- The announcements are of processes that announce themselves, and one that is no join follows,
at its end point, on one of the same process. -/
structure Orderly (own : UInt64) (log : List (Post V)) : Prop where
  quiet : ∀ payload, Post.other payload ∈ log → announcement own ⟨payload, 0, 0⟩ = none
  known : ∀ p event, Post.announce p event ∈ log → p.id ≠ own ∧ event ∈ events
  follows : ∀ pre p event suf, log = pre ++ Post.announce p event :: suf → event ≠ "join" →
    holder p.privateEndPoint pre = none ∨ holder p.privateEndPoint pre = some p

omit [JsonField V] in
theorem holder_snoc (e : String) (log : List (Post V)) (post : Post V) :
    holder e (log ++ [post]) = (post.speaks e).or (holder e log) := by
  unfold holder
  rw [List.filterMap_append, List.getLast?_append]
  cases h : post.speaks e <;> simp [h]

theorem Orderly.snoc_other {log : List (Post V)} {payload : Option (JsonObject V)}
    (h : Orderly own log) (hquiet : announcement own ⟨payload, 0, 0⟩ = none) :
    Orderly own (log ++ [.other payload]) := by
  constructor
  · intro payload' hmem
    rcases List.mem_append.mp hmem with hmem | hmem
    · exact h.quiet payload' hmem
    · cases List.mem_singleton.mp hmem
      exact hquiet
  · intro p event hmem
    rcases List.mem_append.mp hmem with hmem | hmem
    · exact h.known p event hmem
    · cases List.mem_singleton.mp hmem
  · intro pre p event suf heq hjoin
    rcases List.eq_nil_or_concat suf with rfl | ⟨suf, post, rfl⟩
    · cases (List.append_inj' heq rfl).2
    · rw [List.concat_eq_append, ← List.cons_append, ← List.append_assoc] at heq
      exact h.follows pre p event suf (List.append_inj' heq rfl).1 hjoin

theorem Orderly.snoc_announce {log : List (Post V)} (h : Orderly own log) (hown : p.id ≠ own)
    (hevent : event ∈ events) (hlast : event ≠ "join" →
      holder p.privateEndPoint log = none ∨ holder p.privateEndPoint log = some p) :
    Orderly own (log ++ [.announce p event]) := by
  constructor
  · intro payload hmem
    rcases List.mem_append.mp hmem with hmem | hmem
    · exact h.quiet payload hmem
    · cases List.mem_singleton.mp hmem
  · intro p' event' hmem
    rcases List.mem_append.mp hmem with hmem | hmem
    · exact h.known p' event' hmem
    · cases List.mem_singleton.mp hmem
      exact ⟨hown, hevent⟩
  · intro pre p' event' suf heq hjoin
    rcases List.eq_nil_or_concat suf with rfl | ⟨suf, post, rfl⟩
    · obtain ⟨rfl, hpost⟩ := List.append_inj' heq rfl
      cases hpost
      exact hlast hjoin
    · rw [List.concat_eq_append, ← List.cons_append, ← List.append_assoc] at heq
      exact h.follows pre p' event' suf (List.append_inj' heq rfl).1 hjoin

/-- The processes and the topic. -/
structure Posted (own : UInt64) (s : System V) : Prop where
  orderly : Orderly own s.log
  here : ∀ e p, s.running e = some p → p.privateEndPoint = e ∧ p.id ≠ own
  last : ∀ e p, s.running e = some p → holder e s.log = none ∨ holder e s.log = some p

theorem Posted.announce (h : Posted own s) (he : s.running e = some p) (hevent : event ∈ events) :
    Posted own { s with log := s.log ++ [.announce p event] } := by
  obtain ⟨hpe, hown⟩ := h.here e p he
  refine ⟨h.orderly.snoc_announce hown hevent fun _ => by rw [hpe]; exact h.last e p he, h.here, ?_⟩
  intro e' p' he'
  dsimp only at he' ⊢
  rw [holder_snoc]
  by_cases hee : e' = e
  · subst hee
    cases he.symm.trans he'
    exact .inr (by rw [Post.speaks, if_pos hpe, Option.some_or])
  · rw [Post.speaks, if_neg fun h => hee (h.symm.trans hpe), Option.none_or]
    exact h.last e' p' he'

theorem Posted.drop (h : Posted own s) (e : String) :
    Posted own { s with running := Function.update s.running e none } := by
  have hrunning (e' : String) (p' : Process)
      (he' : Function.update s.running e none e' = some p') : s.running e' = some p' := by
    by_cases hee : e' = e
    · subst hee
      rw [Function.update_self] at he'
      cases he'
    · rwa [Function.update_of_ne hee] at he'
  exact ⟨h.orderly, fun e' p' he' => h.here e' p' (hrunning e' p' he'),
    fun e' p' he' => h.last e' p' (hrunning e' p' he')⟩

theorem Posted.start (h : Posted own s) (hown : p.id ≠ own) :
    Posted own { s with
      running := Function.update s.running p.privateEndPoint (some p)
      log := s.log ++ [.announce p "join"] } := by
  refine ⟨h.orderly.snoc_announce hown (by simp [events]) fun hne => absurd rfl hne, ?_, ?_⟩
  · intro e p' he
    dsimp only at he
    by_cases hee : e = p.privateEndPoint
    · subst hee
      rw [Function.update_self] at he
      cases he
      exact ⟨rfl, hown⟩
    · rw [Function.update_of_ne hee] at he
      exact h.here e p' he
  · intro e p' he
    dsimp only at he ⊢
    rw [holder_snoc]
    by_cases hee : e = p.privateEndPoint
    · subst hee
      rw [Function.update_self] at he
      exact .inr (by rw [Post.speaks, if_pos rfl, Option.some_or, he])
    · rw [Function.update_of_ne hee] at he
      rw [Post.speaks, if_neg (Ne.symm hee), Option.none_or]
      exact h.last e p' he

theorem posted_step (h : Posted own s) (hs : step computeHash own s ev = some t) :
    Posted own t := by
  cases ev with
  | start p =>
    simp only [step, Option.ite_none_right_eq_some, Option.some.injEq] at hs
    obtain ⟨⟨-, hown⟩, rfl⟩ := hs
    exact h.start hown
  | keepAlive e =>
    obtain ⟨p, he, rfl⟩ := Option.map_eq_some_iff.mp hs
    exact h.announce he (by simp [events])
  | stop e =>
    obtain ⟨p, he, rfl⟩ := Option.map_eq_some_iff.mp hs
    exact (h.announce he (by simp [events])).drop e
  | crash e =>
    obtain ⟨p, he, rfl⟩ := Option.map_eq_some_iff.mp hs
    exact h.drop e
  | post payload =>
    simp only [step] at hs
    split at hs
    · rename_i hquiet
      cases hs
      have hnone := Option.isNone_iff_eq_none.mp hquiet
      refine ⟨h.orderly.snoc_other hnone, h.here, fun e p he => ?_⟩
      dsimp only
      rw [holder_snoc, Post.speaks, Option.none_or]
      exact h.last e p he
    · cases hs
  | receive now later =>
    obtain ⟨post, -, hs⟩ := Option.bind_eq_some_iff.mp hs
    obtain ⟨bus, -, hs⟩ := Option.bind_eq_some_iff.mp hs
    cases hs
    exact ⟨h.orderly, h.here, h.last⟩

/-! ## The consumer -/

omit [JsonField V] in
theorem latestPost_cons (e : String) (h : Heard V) (heard : List (Heard V)) :
    latestPost e (h :: heard) = (h.said e).or (latestPost e heard) := by
  unfold latestPost
  rw [List.filterMap_cons]
  cases h.said e <;> rfl

omit [JsonField V] in
theorem said_fst (e : String) (h : Heard V) : (h.said e).map (·.1) = h.post.speaks e := by
  unfold Heard.said Post.speaks
  cases h.post with
  | other => rfl
  | announce p event =>
    dsimp only
    split <;> rfl

omit [JsonField V] in
theorem latestPost_fst (e : String) (heard : List (Heard V)) :
    (latestPost e heard).map (·.1) = holder e (heard.reverse.map Heard.post) := by
  induction heard with
  | nil => rfl
  | cons h heard ih =>
    rw [latestPost_cons, List.reverse_cons, List.map_append, List.map_cons, List.map_nil,
      holder_snoc, ← ih, ← said_fst]
    cases h.said e <;> rfl

variable (computeHash own) in
/-- The consumer has read a part of the log, and its map is what it has heard. -/
structure Recorded (s : System V) : Prop where
  read : s.heard.reverse.map Heard.post <+: s.log
  table : ∀ (e : String) service, s.bus.state.services[e]? = some service →
    ∃ p event time, latestPost e s.heard = some (p, event, time) ∧ event ≠ "leave" ∧
      service = p.service computeHash time
  latest : ∀ e, MicroService.latest own e s.bus.processed = (latestPost e s.heard).map (·.2)
  bus : MicroService.Kept own s.bus

theorem latest_cons (e : String) (m : Message V) (ms : List (Message V)) :
    MicroService.latest own e (m :: ms) =
      match announcement own m with
      | some (e', event) => if e' = e then some (event, m.now) else MicroService.latest own e ms
      | none => MicroService.latest own e ms := rfl

theorem getElem?_stored (services : Services) (e : String) :
    (stored computeHash p event now services)[e]? =
      if p.privateEndPoint = e then
        if event = "leave" then none
        else if event = "keep-alive" ∧ p.privateEndPoint ∈ services then
          (services[e]?).map fun service => { service with lastUpdate := now }
        else some (p.service computeHash now)
      else services[e]? := by
  unfold stored
  by_cases hknown : event = "keep-alive" ∧ p.privateEndPoint ∈ services
  · have hleave : event ≠ "leave" := by rw [hknown.1]; decide
    rw [if_pos hknown, if_pos hknown, if_neg hleave]
    by_cases he : p.privateEndPoint = e
    · rw [if_pos he, he, Std.ExtTreeMap.getElem?_modify_self]
    · rw [if_neg he, Std.ExtTreeMap.getElem?_modify]
      simp [he]
  · rw [if_neg hknown, if_neg hknown]
    by_cases hleave : event = "leave"
    · rw [if_pos hleave, if_pos hleave, Std.ExtTreeMap.getElem?_erase]
      simp
    · rw [if_neg hleave, if_neg hleave, Std.ExtTreeMap.getElem?_insert]
      simp

omit [JsonField V] in
theorem stored_table {heard : List (Heard V)} {services : Services}
    (htable : ∀ (e : String) service, services[e]? = some service →
      ∃ p event time, latestPost e heard = some (p, event, time) ∧ event ≠ "leave" ∧
        service = p.service computeHash time)
    (hlast : event ≠ "join" → latestPost p.privateEndPoint heard = none ∨
      ∃ event time, latestPost p.privateEndPoint heard = some (p, event, time))
    {service : MicroServiceMeta}
    (h : (stored computeHash p event now services)[e]? = some service) :
    ∃ p' event' time, latestPost e (⟨.announce p event, now, later⟩ :: heard) =
      some (p', event', time) ∧ event' ≠ "leave" ∧ service = p'.service computeHash time := by
  rw [getElem?_stored] at h
  rw [latestPost_cons]
  by_cases he : p.privateEndPoint = e
  · have hsaid : Heard.said e (⟨.announce p event, now, later⟩ : Heard V) = some (p, event, now) :=
      if_pos he
    rw [if_pos he] at h
    split at h
    · cases h
    · rename_i hleave
      refine ⟨p, event, now, by rw [hsaid, Option.some_or], hleave, ?_⟩
      split at h
      · rename_i hknown
        -- The entry is of an earlier announcement, which was by the same process.
        obtain ⟨old, hold, rfl⟩ := Option.map_eq_some_iff.mp h
        obtain ⟨p', event', time, hlatest, -, rfl⟩ := htable e old hold
        have hjoin : event ≠ "join" := by rw [hknown.1]; decide
        rcases hlast hjoin with hnone | ⟨event'', time', hsome⟩
        · rw [he, hlatest] at hnone
          cases hnone
        · rw [he, hlatest] at hsome
          cases hsome
          rfl
      · exact (Option.some.inj h).symm
  · have hsaid : Heard.said e (⟨.announce p event, now, later⟩ : Heard V) = none := if_neg he
    rw [if_neg he] at h
    rw [hsaid, Option.none_or]
    exact htable e service h

theorem of_sweep {services : Services} {service : MicroServiceMeta}
    (h : (sweep services now)[e]? = some service) : services[e]? = some service := by
  rw [getElem?_sweep] at h
  exact (Option.filter_eq_some_iff.mp h).1

theorem step_announce {b b' : Bus V} (hown : p.id ≠ own) (hevent : event ∈ events)
    (h : MicroService.step own b
      (Heard.message computeHash (⟨.announce p event, now, later⟩ : Heard V)) = some b') :
    b'.state.services = sweep (stored computeHash p event now b.state.services) later ∧
      b'.processed =
        Heard.message computeHash (⟨.announce p event, now, later⟩ : Heard V) :: b.processed := by
  have hreceive : busMessageReceived own b.state
      (some (JsonObject.ofFields (V := V) (makeSystemEventMessage computeHash p event))) now later =
      some { b.state with
        services := sweep (stored computeHash p event now b.state.services) later } := by
    rw [busMessageReceived, Option.bind_eq_bind, Option.bind_some,
      receive_announce hown hevent]
    rfl
  unfold MicroService.step at h
  split at h
  · simp only [Heard.message, Post.payload, hreceive] at h
    cases h
    exact ⟨rfl, rfl⟩
  · cases h

theorem step_other {b b' : Bus V} {m : Message V} (ha : announcement own m = none)
    (h : MicroService.step own b m = some b') :
    (∀ (e : String) service, b'.state.services[e]? = some service →
      b.state.services[e]? = some service) ∧
    ∀ e, MicroService.latest own e b'.processed = MicroService.latest own e b.processed := by
  cases stepped_of_step h with
  | thrown => exact ⟨fun _ _ h => h, fun _ => rfl⟩
  | @processed o v hle hlater hm hv =>
    have hsame := receive_applied hm hv
    rw [ha] at hsame
    refine ⟨fun e service hs => ?_, fun e => ?_⟩
    · rw [← hsame]
      exact of_sweep hs
    · rw [latest_cons, ha]

theorem read_take (h : Recorded computeHash own s) :
    s.heard.reverse.map Heard.post = s.log.take s.heard.length := by
  have htake := List.prefix_iff_eq_take.mp h.read
  rwa [List.length_map, List.length_reverse] at htake

omit [JsonField V] in
theorem log_split {post : Post V} (hpost : s.log[s.heard.length]? = some post) :
    s.log = s.log.take s.heard.length ++ post :: s.log.drop (s.heard.length + 1) := by
  obtain ⟨hlt, hget⟩ := List.getElem?_eq_some_iff.mp hpost
  rw [← hget, List.cons_getElem_drop_succ, List.take_append_drop]

theorem read_receive (h : Recorded computeHash own s) {post : Post V}
    (hpost : s.log[s.heard.length]? = some post) :
    (⟨post, now, later⟩ :: s.heard).reverse.map Heard.post <+: s.log := by
  rw [List.reverse_cons, List.map_append, read_take h]
  refine ⟨s.log.drop (s.heard.length + 1), ?_⟩
  rw [List.append_assoc]
  exact (log_split hpost).symm

theorem latestPost_receive (hposted : Posted own s) (h : Recorded computeHash own s)
    (hpost : s.log[s.heard.length]? = some (.announce p event)) (hjoin : event ≠ "join") :
    latestPost p.privateEndPoint s.heard = none ∨
      ∃ event time, latestPost p.privateEndPoint s.heard = some (p, event, time) := by
  have hholder := latestPost_fst p.privateEndPoint s.heard
  rw [read_take h] at hholder
  rcases hposted.orderly.follows _ p event _ (log_split hpost) hjoin with hnone | hsome
  · rw [hnone, Option.map_eq_none_iff] at hholder
    exact .inl hholder
  · rw [hsome] at hholder
    obtain ⟨⟨p', event', time⟩, hlatest, rfl⟩ := Option.map_eq_some_iff.mp hholder
    exact .inr ⟨event', time, hlatest⟩

theorem recorded_receive (hposted : Posted own s) (h : Recorded computeHash own s) {post : Post V}
    (hpost : s.log[s.heard.length]? = some post) {bus : Bus V}
    (hbus : MicroService.step own s.bus
      (Heard.message computeHash (⟨post, now, later⟩ : Heard V)) = some bus) :
    Recorded computeHash own { s with heard := ⟨post, now, later⟩ :: s.heard, bus := bus } := by
  have hmem : post ∈ s.log := List.mem_of_getElem? hpost
  have hkept := kept_step _ _ _ h.bus hbus
  cases hp : post with
  | other payload =>
    subst hp
    have ha : announcement own
        (Heard.message computeHash (⟨.other payload, now, later⟩ : Heard V)) = none :=
      announcement_other (hposted.orderly.quiet payload hmem) now later
    obtain ⟨hless, hsame⟩ := step_other ha hbus
    have hlatest (e : String) : latestPost e
        ((⟨.other payload, now, later⟩ : Heard V) :: s.heard) = latestPost e s.heard := by
      rw [latestPost_cons]
      rfl
    refine ⟨read_receive h hpost, fun e service hs => ?_, fun e => ?_, hkept⟩
    · rw [hlatest]
      exact h.table e service (hless e service hs)
    · rw [hlatest, hsame]
      exact h.latest e
  | announce p event =>
    subst hp
    obtain ⟨hown, hevent⟩ := hposted.orderly.known p event hmem
    obtain ⟨hservices, hprocessed⟩ := step_announce hown hevent hbus
    refine ⟨read_receive h hpost, fun e service hs => ?_, fun e => ?_, hkept⟩
    · dsimp only at hs
      rw [hservices] at hs
      exact stored_table h.table (latestPost_receive hposted h hpost) (of_sweep hs)
    · dsimp only
      rw [hprocessed, latest_cons, announcement_announce hown hevent, latestPost_cons]
      dsimp only [Heard.said]
      by_cases he : p.privateEndPoint = e
      · rw [if_pos he, if_pos he]
        rfl
      · rw [if_neg he, if_neg he, Option.none_or]
        exact h.latest e

theorem recorded_step (hposted : Posted own s) (h : Recorded computeHash own s)
    (hs : step computeHash own s ev = some t) : Recorded computeHash own t := by
  have hmore (post : Post V) (running : String → Option Process) :
      Recorded computeHash own { s with running := running, log := s.log ++ [post] } :=
    ⟨h.read.trans (List.prefix_append _ _), h.table, h.latest, h.bus⟩
  cases ev with
  | start p =>
    simp only [step] at hs
    split at hs
    · cases hs
      exact hmore _ _
    · cases hs
  | keepAlive e | stop e =>
    obtain ⟨p, -, rfl⟩ := Option.map_eq_some_iff.mp hs
    exact hmore _ _
  | crash e =>
    obtain ⟨p, -, rfl⟩ := Option.map_eq_some_iff.mp hs
    exact ⟨h.read, h.table, h.latest, h.bus⟩
  | post payload =>
    simp only [step] at hs
    split at hs
    · cases hs
      exact hmore _ _
    · cases hs
  | receive now later =>
    obtain ⟨post, hpost, hs⟩ := Option.bind_eq_some_iff.mp hs
    obtain ⟨bus, hbus, hs⟩ := Option.bind_eq_some_iff.mp hs
    cases hs
    exact recorded_receive hposted h hpost hbus

/-! ## Runs -/

/-- Nothing has been posted yet; processes may already be running, each at its own end point. -/
def begin (running : String → Option Process) : System V := { running := running }

variable (own) in
def Apart (running : String → Option Process) : Prop :=
  ∀ e p, running e = some p → p.privateEndPoint = e ∧ p.id ≠ own

theorem posted_begin {running : String → Option Process} (h : Apart own running) :
    Posted own (begin running : System V) := by
  refine ⟨⟨fun _ hm => absurd hm List.not_mem_nil, fun _ _ hm => absurd hm List.not_mem_nil, ?_⟩, h,
    fun _ _ _ => .inl rfl⟩
  intro pre p event suf heq
  cases (List.append_eq_nil_iff.mp heq.symm).2

theorem recorded_begin (running : String → Option Process) :
    Recorded computeHash own (begin running : System V) where
  read := List.nil_prefix
  table e service h := absurd h (by simp [begin])
  latest _ := rfl
  bus := (always_kept own []).here rfl

theorem kept_run {running : String → Option Process} (hrunning : Apart own running)
    {es : List (Event V)} (hrun : run (step computeHash own) (begin running) es = some s) :
    Posted own s ∧ Recorded computeHash own s :=
  (always_of_step (I := fun s => Posted own s ∧ Recorded computeHash own s)
    ⟨posted_begin hrunning, recorded_begin running⟩
    (fun _ _ _ h hs => ⟨posted_step h.1 hs, recorded_step h.1 h.2 hs⟩) es).here hrun

/-- The map of a consumer, after any run of the processes and the topic: each entry is what the
last process that was heard of at the end point says of itself. Unless the last message has
raised an exception, there is an entry for each that has not left and was heard of in the last
60 seconds, and for no other. -/
theorem directory_exact {running : String → Option Process} (hrunning : Apart own running)
    {es : List (Event V)} (hrun : run (step computeHash own) (begin running) es = some s)
    (e : String) :
    (∀ service, s.bus.state.services[e]? = some service →
      ∃ p event time, latestPost e s.heard = some (p, event, time) ∧ event ≠ "leave" ∧
        service = p.service computeHash time) ∧
    (s.bus.thrown = false →
      s.bus.state.services[e]? = entry computeHash s.bus.clock (latestPost e s.heard)) := by
  obtain ⟨-, h⟩ := kept_run hrunning hrun
  refine ⟨h.table e, fun hthrown => ?_⟩
  have hexact := h.bus.exact hthrown e
  rw [h.latest e] at hexact
  cases hservice : s.bus.state.services[e]? with
  | some service =>
    obtain ⟨event, time, hlatest, hleave, hle⟩ :=
      hexact.mp (Std.ExtTreeMap.isSome_getElem?_iff_mem.mp (Option.isSome_of_eq_some hservice))
    obtain ⟨p, event', time', hpost, -, rfl⟩ := h.table e service hservice
    rw [hpost] at hlatest ⊢
    cases hlatest
    rw [entry, if_neg (not_or.mpr ⟨hleave, Nat.not_lt.mpr hle⟩)]
  | none =>
    have hnot : e ∉ s.bus.state.services := by
      rw [← Std.ExtTreeMap.isSome_getElem?_iff_mem, hservice]
      exact nofun
    cases hpost : latestPost e s.heard with
    | none => rfl
    | some said =>
      obtain ⟨p, event, time⟩ := said
      rw [entry]
      split
      · rfl
      · rename_i hlive
        obtain ⟨hleave, hold⟩ := not_or.mp hlive
        rw [hpost] at hexact
        exact absurd (hexact.mpr ⟨event, time, rfl, hleave, Nat.not_lt.mp hold⟩) hnot

section OneProcess

open SimulationHandler (Plain)

def oneProcess : Process :=
  { id := 2, name := "OWLS", publicEndPoint := "p", privateEndPoint := "e", version := "v" }

def oneHash : Hash := fun text => "#" ++ text

def joins : List (Event Plain) :=
  [.start oneProcess, .receive 10 10, .keepAlive "e", .receive 40 40]

/-- The consumer has heard the process twice. -/
def joined : System Plain :=
  (run (step oneHash 1) (begin fun _ => none) joins).getD (begin fun _ => none)

theorem run_joins : run (step oneHash 1) (begin fun _ => none) joins = some joined :=
  (Option.some_get (by decide +kernel)).symm.trans (congrArg some (Option.get_eq_getD _))

theorem directory_exact_joined :
    joined.bus.state.services["e"]? = some (oneProcess.service oneHash 40) := by
  have hthrown : joined.bus.thrown = false := by decide +kernel
  have hapart : Apart 1 fun _ => none := fun _ _ h => by cases h
  refine ((directory_exact hapart run_joins "e").2 hthrown).trans ?_
  decide +kernel

end OneProcess

end Owls.Directory
