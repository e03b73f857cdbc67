import Owls.Coordinator
import Owls.StatusHandler

/-!
# The reports to the master

`SimulationRunner::UpdateMasterSimulation`, and what the master's status handler makes of the
request. Poco's JSON text, its URIs and the way to the handler are parameters.
-/

namespace Owls

open JsonValue JsonField Word

variable {V : Type} [JsonField V]

/-- The fields in the order in which they are set. -/
def SimulationStatus.toJson (s : SimulationStatus) : List (String × V) :=
  [("id", ofText s.id), ("simulationId", ofText s.simulationId), ("state", ofText s.state),
   ("tx", ofUInt64 s.tx), ("rx", ofUInt64 s.rx), ("msgsTx", ofUInt64 s.msgsTx),
   ("msgsRx", ofUInt64 s.msgsRx), ("liveDevices", ofUInt64 s.liveDevices),
   ("timeToFullDevices", ofUInt64 s.timeToFullDevices), ("startTime", ofUInt64 s.startTime),
   ("endTime", ofUInt64 s.endTime), ("errorDevices", ofUInt64 s.errorDevices),
   ("owner", ofText s.owner), ("expectedDevices", ofUInt64 s.expectedDevices)]

theorem SimulationStatus.fromJson_toJson (s : SimulationStatus) :
    SimulationStatus.fromJson (JsonObject.ofFields (V := V) s.toJson) = some s := by
  unfold SimulationStatus.fromJson
  refine Option.bind_eq_some_iff.mpr ⟨_, fieldFromJson_ofText rfl, ?_⟩
  refine Option.bind_eq_some_iff.mpr ⟨_, fieldFromJson_ofText rfl, ?_⟩
  refine Option.bind_eq_some_iff.mpr ⟨_, fieldFromJson_ofText rfl, ?_⟩
  refine Option.bind_eq_some_iff.mpr ⟨_, fieldFromJson_ofUInt64 rfl, ?_⟩
  refine Option.bind_eq_some_iff.mpr ⟨_, fieldFromJson_ofUInt64 rfl, ?_⟩
  refine Option.bind_eq_some_iff.mpr ⟨_, fieldFromJson_ofUInt64 rfl, ?_⟩
  refine Option.bind_eq_some_iff.mpr ⟨_, fieldFromJson_ofUInt64 rfl, ?_⟩
  refine Option.bind_eq_some_iff.mpr ⟨_, fieldFromJson_ofUInt64 rfl, ?_⟩
  refine Option.bind_eq_some_iff.mpr ⟨_, fieldFromJson_ofUInt64 rfl, ?_⟩
  refine Option.bind_eq_some_iff.mpr ⟨_, fieldFromJson_ofUInt64 rfl, ?_⟩
  refine Option.bind_eq_some_iff.mpr ⟨_, fieldFromJson_ofUInt64 rfl, ?_⟩
  refine Option.bind_eq_some_iff.mpr ⟨_, fieldFromJson_ofUInt64 rfl, ?_⟩
  refine Option.bind_eq_some_iff.mpr ⟨_, fieldFromJson_ofText rfl, ?_⟩
  refine Option.bind_eq_some_iff.mpr ⟨_, fieldFromJson_ofUInt64 rfl, ?_⟩
  rfl

namespace Reports

open SimStats StatusHandler SimulationCoordinator

/-! ## The request -/

/-- What `Poco::URI` makes of the master's URI. -/
structure URI where
  scheme : String
  host : String := ""
  port : UInt16 := 0
  query : Parameters := []

structure Poco (V : Type) where
  /-- `none`: the URI has a syntax error. -/
  uri : String → Option URI
  stringify : List (String × V) → String
  /-- `none`: the text is not a JSON object. -/
  parse : String → Option (JsonObject V)
  /-- The master's router hands `/api/v1/status/{id}` to the status handler, with that `id`. -/
  routes : String → Bool

/-- What is written to the connection: the headers, then the body. -/
structure Written where
  host : String
  port : UInt16
  /-- The path is `/api/v1/status/{id}`. -/
  id : String
  query : Parameters
  contentType : String
  apiKey : String
  internalName : String
  contentLength : Nat
  body : String
deriving DecidableEq

variable (poco : Poco V)

def URI.withIndex (uri : URI) (index : UInt64) : Parameters :=
  uri.query ++ [("index", toDecimal index)]

def writeRequest (publicEndPoint : String) (r : RunnerArguments) (simStatus : SimulationStatus)
    (uri : URI) : Written :=
  let secure := uri.scheme == "https"
  let os := poco.stringify simStatus.toJson
  { host := uri.host, port := uri.port, id := r.runningId, query := uri.withIndex r.index,
    contentType := "application/json", apiKey := r.accessKey, internalName := publicEndPoint,
    contentLength := os.length,
    -- The branch for `http` sends the headers, and goes on to read the response.
    body := if secure then os else "" }

/-- What the runner reports, on a secondary. -/
def current (ss : Statuses) (r : RunnerArguments) : SimulationStatus :=
  getCurrent false ss r.runningId {} r.uinfo

/-- `none`: the URI does not parse, and nothing is written. -/
def updateMasterSimulation (publicEndPoint : String) (ss : Statuses) (r : RunnerArguments) :
    Option Written :=
  (poco.uri r.masterURI).map (writeRequest poco publicEndPoint r (current ss r))

/-- The request as the status handler gets it, if it does. -/
def received (w : Written) (now : UInt64) : Option (Request V) :=
  if poco.routes w.id then
    (poco.parse w.body).map fun o => { id := w.id, parameters := w.query, body := some o, now }
  else none

/-- The master's statistics after the request. -/
def delivered (ss : Statuses) (w : Written) (now : UInt64) : Statuses :=
  match received poco w now with
  | none => ss
  | some r => put true ss r

/-! ## What a report owes the master -/

/-- The headers announce the body, and the body is the JSON of the current status. -/
structure Announced (ss : Statuses) (r : RunnerArguments) (w : Written) : Prop where
  length : w.body.length = w.contentLength
  body : w.body = poco.stringify (current ss r).toJson

/-- Where the master has a slot for it, the report puts the secondary's slot 0 there. -/
def Lands (ss : Statuses) (r : RunnerArguments) (w : Written) : Prop :=
  ∀ v, ss[r.runningId]? = some v → ∀ (there : Statuses) m now, there[r.runningId]? = some m →
    1 ≤ r.index.toNat → r.index.toNat < m.toList.length →
    ∃ m', (delivered poco there w now)[r.runningId]? = some m' ∧
      m'.toList[r.index.toNat]? = some v.first

/-- The report goes over `https`. It is of the runner's own simulation, and its path and its
query get to the handler as they were meant. -/
structure Sound (ss : Statuses) (r : RunnerArguments) (uri : URI) : Prop where
  secure : uri.scheme = "https"
  own : r.index ≠ 0 → ∀ v, ss[r.runningId]? = some v →
    (r.uinfo.userRole = .root ∨ r.uinfo.email = v.first.owner) ∧ v.first.id = r.runningId
  path : r.index ≠ 0 → (ss[r.runningId]?).isSome → r.runningId ≠ "" ∧ poco.routes r.runningId = true
  query : r.index ≠ 0 → (ss[r.runningId]?).isSome →
    (initQueryBlock (uri.withIndex r.index)).isSome ∧
      getParameterNumber (uri.withIndex r.index) "index" 0 = some r.index

variable {poco} {ss there : Statuses} {r : RunnerArguments} {uri : URI} {w : Written}
  {publicEndPoint : String} {now : UInt64}

/-- The text of the current status is one that the master can read. -/
def Readable (poco : Poco V) (s : SimulationStatus) : Prop :=
  poco.parse "" = none ∧ poco.parse (poco.stringify s.toJson) = some (JsonObject.ofFields s.toJson)

theorem Readable.stringify_ne {s : SimulationStatus} (h : Readable poco s) :
    poco.stringify s.toJson ≠ "" := by
  intro hempty
  have hparse := h.2
  rw [hempty, h.1] at hparse
  cases hparse

theorem announced_iff (h : Readable poco (current ss r)) :
    Announced poco ss r (writeRequest poco publicEndPoint r (current ss r) uri) ↔
      uri.scheme = "https" := by
  constructor
  · intro ha
    by_contra hscheme
    have hbody := ha.body
    simp only [writeRequest, beq_iff_eq, hscheme, if_false] at hbody
    exact h.stringify_ne hbody.symm
  · intro hscheme
    constructor <;> simp [writeRequest, hscheme]

/-- What the handler gets of a report over `https`. -/
def reported (ss : Statuses) (r : RunnerArguments) (uri : URI) (now : UInt64) : Request V :=
  { id := r.runningId, parameters := uri.withIndex r.index,
    body := some (JsonObject.ofFields (current ss r).toJson), now }

theorem received_writeRequest (h : Readable poco (current ss r)) (hscheme : uri.scheme = "https") :
    received poco (writeRequest poco publicEndPoint r (current ss r) uri) now =
      if poco.routes r.runningId then some (reported ss r uri now) else none := by
  simp [received, writeRequest, hscheme, h.2, reported]

theorem reported_index {k : UInt64}
    (hk : getParameterNumber (uri.withIndex r.index) "index" 0 = some k) :
    (reported (V := V) ss r uri now).index = k := by
  have hk' : getParameterNumber (reported (V := V) ss r uri now).parameters "index" 0 = some k := hk
  rw [Request.index, hk']
  rfl

theorem reported_passes_iff {s : SimulationStatus} :
    Passes (reported (V := V) ss r uri now) s ↔ s = current ss r ∧ r.runningId ≠ "" ∧
      (initQueryBlock (uri.withIndex r.index)).isSome ∧
      ∃ k, getParameterNumber (uri.withIndex r.index) "index" 0 = some k ∧ k ≠ 0 := by
  have hbody : (reported (V := V) ss r uri now).body.bind SimulationStatus.fromJson =
      some (current ss r) := SimulationStatus.fromJson_toJson _
  constructor
  · intro h
    obtain ⟨k, hk⟩ := Option.isSome_iff_exists.mp h.index_some
    have hne := h.index_ne
    rw [Request.index, hk] at hne
    exact ⟨Option.some.inj (h.body.symm.trans hbody), h.id_ne, h.query, k, hk, hne⟩
  · rintro ⟨rfl, hid, hquery, k, hk, hne⟩
    exact ⟨hid, hquery, Option.isSome_of_eq_some hk, (reported_index (V := V) hk) ▸ hne, hbody⟩

theorem current_of_own {v : Slots} (hv : ss[r.runningId]? = some v)
    (hown : r.uinfo.userRole = .root ∨ r.uinfo.email = v.first.owner) :
    current ss r = v.first := by
  simp [current, getCurrent, hv, hown]

theorem getElem?_report_self {master : Bool} {index : UInt64} {m : Slots} (hindex : index ≠ 0)
    (hlt : index.toNat < m.toList.length) (s : SimulationStatus) :
    (m.report master now s index).toList[index.toNat]? = some s := by
  obtain ⟨j, hj⟩ := exists_toNat_eq_succ hindex
  have hjlt : j < m.rest.length := by
    rw [hj] at hlt
    exact Nat.lt_of_succ_lt_succ hlt
  rw [hj, Slots.toList, List.getElem?_cons_succ, rest_report, hj]
  exact List.getElem?_set_self hjlt

theorem delivered_slot (h : Readable poco (current ss r)) (hs : Sound poco ss r uri) {v m : Slots}
    (hv : ss[r.runningId]? = some v) (hm : there[r.runningId]? = some m)
    (hpos : 1 ≤ r.index.toNat) (hlt : r.index.toNat < m.toList.length) :
    ∃ m', (delivered poco there (writeRequest poco publicEndPoint r (current ss r) uri)
        now)[r.runningId]? = some m' ∧ m'.toList[r.index.toNat]? = some v.first := by
  have hindex : r.index ≠ 0 := by
    intro h0
    simp [h0] at hpos
  obtain ⟨hown, hvid⟩ := hs.own hindex v hv
  obtain ⟨hid, hroutes⟩ := hs.path hindex (Option.isSome_of_eq_some hv)
  obtain ⟨hblock, hk⟩ := hs.query hindex (Option.isSome_of_eq_some hv)
  have hcurrent := current_of_own hv hown
  have hpasses : Passes (reported (V := V) ss r uri now) (current ss r) :=
    reported_passes_iff.mpr ⟨rfl, hid, hblock, r.index, hk, hindex⟩
  have hcid : (current ss r).id = r.runningId := by rw [hcurrent, hvid]
  refine ⟨m.report true now (current ss r) r.index, ?_, ?_⟩
  · rw [delivered, received_writeRequest h hs.secure, if_pos hroutes]
    simp only
    rw [put_of_passes hpasses, reported_index hk, ← hcid, getElem?_updateRemoteStatus, hcid, hm]
    rfl
  · rw [getElem?_report_self hindex hlt, hcurrent]

/-- The slots of a master that has nothing but `s` in them, up to the slot `index`. -/
def filled (s : SimulationStatus) (index : UInt64) : Slots := ⟨s, List.replicate index.toNat s⟩

theorem getElem?_filled (s : SimulationStatus) {index k : UInt64} (h : k.toNat ≤ index.toNat) :
    (filled s index).toList[k.toNat]? = some s := by
  rw [filled, Slots.toList, ← List.replicate_succ, List.getElem?_replicate_of_lt (by omega)]

theorem changed_ne (s : SimulationStatus) : ({ s with tx := s.tx + 1 } : SimulationStatus) ≠ s := by
  intro h
  have htx : s.tx + 1 = s.tx := congrArg SimulationStatus.tx h
  simp at htx

theorem slot_of_delivered (h : Readable poco (current ss r)) (hscheme : uri.scheme = "https")
    (hindex : r.index ≠ 0) {m m' : Slots} {s : SimulationStatus}
    (hm : there[r.runningId]? = some m)
    (hm' : (delivered poco there (writeRequest poco publicEndPoint r (current ss r) uri)
      now)[r.runningId]? = some m')
    (hs : m'.toList[r.index.toNat]? = some s) (hne : m.toList[r.index.toNat]? ≠ some s) :
    s = current ss r ∧ s.id = r.runningId ∧ r.runningId ≠ "" ∧ poco.routes r.runningId = true ∧
      (initQueryBlock (uri.withIndex r.index)).isSome ∧
      getParameterNumber (uri.withIndex r.index) "index" 0 = some r.index := by
  have hsame (heq : (delivered poco there (writeRequest poco publicEndPoint r (current ss r) uri)
      now)[r.runningId]? = some m) : False := by
    cases heq.symm.trans hm'
    exact hne hs
  unfold delivered at hm' hsame
  rw [received_writeRequest h hscheme] at hm' hsame
  by_cases hroutes : poco.routes r.runningId = true
  · rw [if_pos hroutes] at hm' hsame
    simp only at hm' hsame
    by_cases hpasses : ∃ s', Passes (reported (V := V) ss r uri now) s'
    · obtain ⟨s', hpasses⟩ := hpasses
      obtain ⟨rfl, hid, hblock, k, hk, hk0⟩ := reported_passes_iff.mp hpasses
      rw [put_of_passes hpasses, reported_index hk] at hm' hsame
      by_cases hcid : (current ss r).id = r.runningId
      · rw [← hcid, getElem?_updateRemoteStatus, hcid, hm, Option.map_some] at hm'
        obtain rfl := Option.some.inj hm'
        by_cases heq : r.index = k
        · subst heq
          by_cases hlt : r.index.toNat < m.toList.length
          · rw [getElem?_report_self hindex hlt] at hs
            cases hs
            exact ⟨rfl, hcid, hid, hroutes, hblock, hk⟩
          · rw [report_of_length_le (Nat.not_lt.mp hlt)] at hs
            exact absurd hs hne
        · have hother : r.index.toNat ≠ k.toNat := fun h => heq (UInt64.toNat_inj.mp h)
          have h0 : r.index.toNat ≠ 0 := fun h => hindex (UInt64.toNat_inj.mp h)
          rw [(sameBut_report hk0).others _ h0 hother] at hs
          exact absurd hs hne
      · exact (hsame ((getElem?_apply_of_ne (c := .updateRemoteStatus _ _ _) hcid).trans hm)).elim
    · rw [put_of_refused fun s' h' => hpasses ⟨s', h'⟩] at hsame
      exact (hsame hm).elim
  · rw [if_neg hroutes] at hsame
    exact (hsame hm).elim

theorem lands_iff (h : Readable poco (current ss r)) (hscheme : uri.scheme = "https") :
    Lands poco ss r (writeRequest poco publicEndPoint r (current ss r) uri) ↔
      Sound poco ss r uri := by
  constructor
  · intro hlands
    have hsound (hindex : r.index ≠ 0) {v : Slots} (hv : ss[r.runningId]? = some v) :
        v.first = current ss r ∧ v.first.id = r.runningId ∧ r.runningId ≠ "" ∧
          poco.routes r.runningId = true ∧ (initQueryBlock (uri.withIndex r.index)).isSome ∧
          getParameterNumber (uri.withIndex r.index) "index" 0 = some r.index := by
      -- A master whose slots all differ from what the report should leave there.
      let s := { v.first with tx := v.first.tx + 1 }
      let there : Statuses := (∅ : Statuses).insert r.runningId (filled s r.index)
      have hm : there[r.runningId]? = some (filled s r.index) := Std.ExtTreeMap.getElem?_insert_self
      have hslot := getElem?_filled s (Nat.le_refl r.index.toNat)
      have hpos : 1 ≤ r.index.toNat := by
        refine Nat.one_le_iff_ne_zero.mpr fun h0 => hindex (UInt64.toNat_inj.mp h0)
      have hlt : r.index.toNat < (filled s r.index).toList.length := by
        simp [filled, Slots.toList]
      obtain ⟨m', hm', hs⟩ := hlands v hv there _ 0 hm hpos hlt
      refine slot_of_delivered h hscheme hindex hm hm' hs ?_
      rw [hslot]
      exact fun heq => changed_ne v.first (Option.some.inj heq)
    refine ⟨hscheme, fun hindex v hv => ?_, fun hindex hsome => ?_, fun hindex hsome => ?_⟩
    · obtain ⟨hcurrent, hvid, hid, -⟩ := hsound hindex hv
      refine ⟨?_, hvid⟩
      by_contra hnot
      have hdefault : current ss r = {} := by simp [current, getCurrent, hv, hnot]
      rw [hcurrent, hdefault] at hvid
      exact hid hvid.symm
    · obtain ⟨v, hv⟩ := Option.isSome_iff_exists.mp hsome
      exact ⟨(hsound hindex hv).2.2.1, (hsound hindex hv).2.2.2.1⟩
    · obtain ⟨v, hv⟩ := Option.isSome_iff_exists.mp hsome
      exact (hsound hindex hv).2.2.2.2
  · intro hs v hv there m now hm hpos hlt
    exact delivered_slot h hs hv hm hpos hlt

/-- A report is what it announces, and lands, exactly when it is sound. The branches for `http`
and for `https` never write the same. -/
theorem updateMasterSimulation_iff (huri : poco.uri r.masterURI = some uri)
    (hread : Readable poco (current ss r)) :
    (∃ w, updateMasterSimulation poco publicEndPoint ss r = some w ∧
      (Announced poco ss r w ∧ Lands poco ss r w ↔ Sound poco ss r uri)) ∧
    (writeRequest poco publicEndPoint r (current ss r) { uri with scheme := "http" }).body ≠
      (writeRequest poco publicEndPoint r (current ss r) { uri with scheme := "https" }).body := by
  refine ⟨⟨_, by rw [updateMasterSimulation, huri, Option.map_some], ?_⟩, ?_⟩
  · rw [announced_iff hread]
    constructor
    · exact fun ⟨hscheme, hlands⟩ => (lands_iff hread hscheme).mp hlands
    · exact fun hs => ⟨hs.secure, (lands_iff hread hs.secure).mpr hs⟩
  · intro h
    simp only [writeRequest, BEq.rfl, if_true] at h
    exact hread.stringify_ne h.symm

/-! ## One report -/

section OneReport

open SimulationHandler (Plain)

instance : JsonField Plain where
  ofText := .text
  ofUInt64 := .number
  toText_ofText _ := rfl
  toUInt64_ofUInt64 _ := rfl

def render (fields : List (String × Plain)) : String :=
  let quoted (t : String) : String := "\"" ++ t ++ "\""
  let value : Plain → String
    | .text t => quoted t
    | .number n => toDecimal n
  "\x7b" ++ ",".intercalate (fields.map fun f => quoted f.1 ++ ":" ++ value f.2) ++ "\x7d"

def oneRunner (scheme : String) : RunnerArguments :=
  { details := { id := "d" }, runningId := "run", uinfo := { email := "o" },
    masterURI := scheme ++ "://m:16004", accessKey := "k", index := 1 }

def oneStatus : Statuses := startSim false 3 .empty ∅ "run" { id := "d" } { email := "o" }

def oneSlot : SimulationStatus := started 3 "run" { id := "d" } { email := "o" }

def onePoco : Poco Plain :=
  { uri := fun t =>
      if t = "http://m:16004" then some { scheme := "http", host := "m", port := 16004 }
      else if t = "https://m:16004" then some { scheme := "https", host := "m", port := 16004 }
      else none
    stringify := render
    parse := fun t => if t = render oneSlot.toJson then some (.ofFields oneSlot.toJson) else none
    routes := fun id => id ≠ "" && id.toList.all fun c => c ≠ '/' && c ≠ '%' }

theorem render_ne (fields : List (String × Plain)) : render fields ≠ "" := by
  simp [render]

theorem current_oneStatus (scheme : String) : current oneStatus (oneRunner scheme) = oneSlot := by
  have hget : oneStatus["run"]? = some ⟨oneSlot, []⟩ := by decide
  exact current_of_own (r := oneRunner scheme) hget (.inr rfl)

theorem onePoco_parse (t : String) : onePoco.parse t =
    if t = render oneSlot.toJson then some (.ofFields oneSlot.toJson) else none := rfl

theorem onePoco_readable (scheme : String) :
    Readable onePoco (current oneStatus (oneRunner scheme)) := by
  rw [current_oneStatus]
  constructor
  · rw [onePoco_parse, if_neg (render_ne _).symm]
  · rw [onePoco_parse, if_pos (by rfl)]

theorem oneReport_sound : Sound onePoco oneStatus (oneRunner "https")
    { scheme := "https", host := "m", port := 16004 } where
  secure := rfl
  own _ v hv := by
    cases hv
    exact ⟨.inr rfl, rfl⟩
  path _ _ := by decide
  query _ _ := by decide

theorem updateMasterSimulation_oneReport :
    ∃ w, updateMasterSimulation onePoco "e" oneStatus (oneRunner "https") = some w ∧
      Announced onePoco oneStatus (oneRunner "https") w ∧
      Lands onePoco oneStatus (oneRunner "https") w := by
  obtain ⟨⟨w, hw, hiff⟩, -⟩ := updateMasterSimulation_iff
    (rfl : onePoco.uri (oneRunner "https").masterURI = _) (onePoco_readable "https")
  exact ⟨w, hw, hiff.mpr oneReport_sound⟩

/-- Over `http` the headers announce a body that is not written. -/
theorem http_report_has_no_body :
    ¬ ∀ (poco : Poco Plain) (publicEndPoint : String) (ss : Statuses) (r : RunnerArguments)
      (uri : URI), poco.uri r.masterURI = some uri → Readable poco (current ss r) →
      uri.scheme = "http" ∨ uri.scheme = "https" →
      ∃ w, updateMasterSimulation poco publicEndPoint ss r = some w ∧ Announced poco ss r w ∧
        Lands poco ss r w := by
  intro h
  obtain ⟨w, hw, hannounced, -⟩ := h onePoco "e" oneStatus (oneRunner "http") _ rfl
    (onePoco_readable "http") (.inl rfl)
  cases hw
  exact (onePoco_readable "http").stringify_ne hannounced.body.symm

end OneReport

end Reports

end Owls
