import Owls.Json
import Owls.Query
import Owls.SimulationHandler
import Owls.Totals

/-!
# `RESTAPI_status_handler`

The statistics as users read them, and as the other nodes report theirs.
-/

namespace Owls

open JsonValue

/-- A conversion that throws ends it, and so does the access through a null pointer. -/
def SimulationStatus.fromJson {V : Type} [JsonValue V] (o : JsonObject V) :
    Option SimulationStatus := do
  let s : SimulationStatus := {}
  let id ← fieldFromJson toText o "id" s.id
  let simulationId ← fieldFromJson toText o "simulationId" s.simulationId
  let state ← fieldFromJson toText o "state" s.state
  let tx ← fieldFromJson toUInt64 o "tx" s.tx
  let rx ← fieldFromJson toUInt64 o "rx" s.rx
  let msgsTx ← fieldFromJson toUInt64 o "msgsTx" s.msgsTx
  let msgsRx ← fieldFromJson toUInt64 o "msgsRx" s.msgsRx
  let liveDevices ← fieldFromJson toUInt64 o "liveDevices" s.liveDevices
  let timeToFullDevices ← fieldFromJson toUInt64 o "timeToFullDevices" s.timeToFullDevices
  let startTime ← fieldFromJson toUInt64 o "startTime" s.startTime
  let endTime ← fieldFromJson toUInt64 o "endTime" s.endTime
  let errorDevices ← fieldFromJson toUInt64 o "errorDevices" s.errorDevices
  let owner ← fieldFromJson toText o "owner" s.owner
  let expectedDevices ← fieldFromJson toUInt64 o "expectedDevices" s.expectedDevices
  return { id, simulationId, state, tx, rx, msgsTx, msgsRx, liveDevices, timeToFullDevices,
           startTime, endTime, errorDevices, owner, expectedDevices }

namespace StatusHandler

open SimStats

variable (master : Bool)

/-! ## Reading -/

inductive Reply where
  | ok
  | badRequest (e : Errors.Msg)
  | statuses (l : List SimulationStatus)
deriving DecidableEq

def doGet (ss : Statuses) (id : String) (uinfo : UserInfo) : Reply :=
  if id = "" then .badRequest Errors.missingOrInvalidParameters
  else if id = "*" then .statuses (getAllSimulations master ss uinfo)
  else .statuses [getCurrent master ss id {} uinfo]

/-! ## What an owner can tell -/

variable {master} {ss ss' : Statuses} {uinfo : UserInfo} {id owner : String}

/-- The two states have the same simulations of the owner. -/
def AgreeOn (owner : String) (ss ss' : Statuses) : Prop :=
  ∀ (id : String) v, v.first.owner = owner → (ss[id]? = some v ↔ ss'[id]? = some v)

def owned (ss : Statuses) (owner : String) : Statuses := ss.filter fun _ v => v.first.owner == owner

theorem getElem?_owned : (owned ss owner)[id]? = (ss[id]?).filter (·.first.owner == owner) :=
  Std.ExtTreeMap.getElem?_filter'

theorem owned_eq (h : AgreeOn owner ss ss') : owned ss owner = owned ss' owner := by
  apply Std.ExtTreeMap.ext_getElem?
  intro id
  ext v
  simp only [getElem?_owned, Option.filter_eq_some_iff, beq_iff_eq]
  constructor
  · rintro ⟨hv, howner⟩
    exact ⟨(h id v howner).mp hv, howner⟩
  · rintro ⟨hv, howner⟩
    exact ⟨(h id v howner).mpr hv, howner⟩

theorem getCurrent_owned (hrole : uinfo.userRole ≠ .root) (result : SimulationStatus) :
    getCurrent master (owned ss uinfo.email) id result uinfo =
      getCurrent master ss id result uinfo := by
  unfold getCurrent
  rw [getElem?_owned]
  cases ss[id]? with
  | none => rfl
  | some v =>
    by_cases howner : uinfo.email = v.first.owner
    · simp [Option.filter_some, howner]
    · have hne : (v.first.owner == uinfo.email) = false := beq_eq_false_iff_ne.mpr (Ne.symm howner)
      simp only [Option.filter_some, hne, hrole, howner, or_self, if_false, Bool.false_eq_true]

theorem getAllSimulations_owned (hrole : uinfo.userRole ≠ .root) :
    getAllSimulations master (owned ss uinfo.email) uinfo =
      getAllSimulations master ss uinfo := by
  have hlist : (owned ss uinfo.email).toList =
      ss.toList.filter fun p => p.2.first.owner == uinfo.email := Std.ExtTreeMap.toList_filter
  unfold getAllSimulations
  rw [hlist, List.filterMap_filter]
  apply List.filterMap_congr
  rintro ⟨id, v⟩ -
  simp only [getCurrent_owned hrole, hrole, false_or, beq_iff_eq]
  by_cases howner : v.first.owner = uinfo.email
  · rw [if_pos howner]
  · rw [if_neg howner, if_neg (Ne.symm howner)]

/-- What a user who is not root reads depends on the user's own simulations alone. -/
theorem owner_view (hrole : uinfo.userRole ≠ .root) (hagree : AgreeOn uinfo.email ss ss') :
    (∀ id result, getCurrent master ss id result uinfo = getCurrent master ss' id result uinfo) ∧
    getAllSimulations master ss uinfo = getAllSimulations master ss' uinfo ∧
    ∀ id, doGet master ss id uinfo = doGet master ss' id uinfo := by
  have hcurrent : ∀ id result, getCurrent master ss id result uinfo =
      getCurrent master ss' id result uinfo := by
    intro id result
    rw [← getCurrent_owned hrole, owned_eq hagree, getCurrent_owned hrole]
  have hall : getAllSimulations master ss uinfo = getAllSimulations master ss' uinfo := by
    rw [← getAllSimulations_owned hrole, owned_eq hagree, getAllSimulations_owned hrole]
  refine ⟨hcurrent, hall, fun id => ?_⟩
  unfold doGet
  rw [hall, hcurrent]

def oneOwner : Statuses := startSim true 3 .empty ∅ "a" {} { email := "u" }

def twoOwners : Statuses := startSim true 4 .empty oneOwner "b" {} { email := "o" }

theorem oneOwner_agrees : AgreeOn "u" oneOwner twoOwners := by
  intro id v howner
  by_cases hid : "b" = id
  · subst hid
    have hnone : oneOwner["b"]? = none := by decide
    have hother : twoOwners["b"]? = some ⟨started 4 "b" {} { email := "o" }, []⟩ := by decide
    rw [hnone, hother]
    constructor
    · rintro ⟨⟩
    · rintro ⟨rfl⟩
      exact absurd howner (by decide)
  · have hget : twoOwners[id]? = oneOwner[id]? :=
      getElem?_apply_of_ne (c := .startSim 4 {} "b" {} { email := "o" }) hid
    rw [hget]

theorem owner_view_oneOwner :
    getAllSimulations true oneOwner { email := "u" } =
      getAllSimulations true twoOwners { email := "u" } :=
  (owner_view (by decide) oneOwner_agrees).2.1

/-! ## Reporting -/

section Put

variable {V : Type} [JsonValue V] (master)

structure Request (V : Type) where
  id : String
  parameters : Parameters := []
  body : Option (JsonObject V) := none
  now : UInt64 := 0

/-- `none`: the exception of an `index` that is out of range. -/
def doPut (ss : Statuses) (r : Request V) : Option (Reply × Statuses) :=
  if r.id = "" then some (.badRequest Errors.missingOrInvalidParameters, ss)
  else do
    let index ← getParameterNumber r.parameters "index" 0
    if index = 0 then some (.badRequest Errors.missingOrInvalidParameters, ss)
    else
      match r.body.bind SimulationStatus.fromJson with
      | none => some (.badRequest Errors.invalidJSONDocument, ss)
      | some simStatus => some (.ok, updateRemoteStatus master r.now ss simStatus index)

/-- The statistics after a PUT, from its query string on. -/
def put (ss : Statuses) (r : Request V) : Statuses :=
  match (initQueryBlock r.parameters).bind fun _ => doPut master ss r with
  | none => ss
  | some (_, ss') => ss'

/-! ## What a report may change -/

/-- Only the slot `k` and the time of slot 0 differ. -/
structure SameBut (k : Nat) (v w : Slots) : Prop where
  length : w.toList.length = v.toList.length
  first : w.forgetTime.first = v.forgetTime.first
  others : ∀ j, j ≠ 0 → j ≠ k → w.toList[j]? = v.toList[j]?

/-- The frame of a report for the slot `k` of a simulation. -/
structure Framed (id : String) (k : Nat) (ss ss' : Statuses) : Prop where
  others : ∀ id', id ≠ id' → ss'[id']? = ss[id']?
  absent : ss[id]? = none → ss'[id]? = none
  own : ∀ v, ss[id]? = some v → ∃ w, ss'[id]? = some w ∧ SameBut k v w

def Request.index (r : Request V) : UInt64 := (getParameterNumber r.parameters "index" 0).getD 0

/-- The request gets as far as `UpdateRemoteStatus`, with `simStatus` from its body. -/
structure Passes (r : Request V) (simStatus : SimulationStatus) : Prop where
  id_ne : r.id ≠ ""
  query : (initQueryBlock r.parameters).isSome
  index_some : (getParameterNumber r.parameters "index" 0).isSome
  index_ne : r.index ≠ 0
  body : r.body.bind SimulationStatus.fromJson = some simStatus

/-- The report finds no slot, or the slot as it reports it and no time to set. -/
def Repeats (now : UInt64) (v : Slots) (simStatus : SimulationStatus) (index : UInt64) : Prop :=
  v.toList.length ≤ index.toNat ∨
  v.toList[index.toNat]? = some simStatus ∧
    (master = true → v.Reaches → now = v.first.startTime)

/-- The body names the simulation that the path names, or changes nothing of the one it names. -/
def Addressed (ss : Statuses) (r : Request V) : Prop :=
  ∀ simStatus, Passes r simStatus → simStatus.id = r.id ∨
    ∀ v, ss[simStatus.id]? = some v → Repeats master r.now v simStatus r.index

variable {master} {r : Request V} {simStatus : SimulationStatus} {v : Slots} {now index : UInt64}

theorem put_of_passes (h : Passes r simStatus) :
    put master ss r = updateRemoteStatus master r.now ss simStatus r.index := by
  obtain ⟨qb, hqb⟩ := Option.isSome_iff_exists.mp h.query
  obtain ⟨index, hindex⟩ := Option.isSome_iff_exists.mp h.index_some
  have hr : r.index = index := by rw [Request.index, hindex]; rfl
  have hne := h.index_ne
  rw [hr] at hne ⊢
  simp only [put, doPut, hqb, hindex, h.body, h.id_ne, hne, Option.bind_eq_bind, Option.bind_some,
    if_false]

theorem put_of_refused (h : ∀ simStatus, ¬ Passes r simStatus) : put master ss r = ss := by
  unfold put doPut
  cases hqb : initQueryBlock r.parameters with
  | none => rfl
  | some qb =>
    by_cases hid : r.id = ""
    · simp [hid]
    · cases hindex : getParameterNumber r.parameters "index" 0 with
      | none => simp [hid]
      | some index =>
        have hr : r.index = index := by rw [Request.index, hindex]; rfl
        by_cases hne : index = 0
        · simp [hid, hne]
        · cases hbody : r.body.bind SimulationStatus.fromJson with
          | none => simp [hid, hne]
          | some simStatus =>
            exact absurd ⟨hid, by rw [hqb]; rfl, by rw [hindex]; rfl, hr ▸ hne, hbody⟩
              (h simStatus)

theorem updated_eq_self :
    v.updated master now = v ↔ (master = true → v.Reaches → now = v.first.startTime) := by
  unfold Slots.updated
  by_cases hreach : master = true ∧ v.Reaches
  · rw [if_pos hreach]
    constructor
    · intro h _ _
      have htime : now - v.first.startTime = 0 :=
        (congrArg (fun v : Slots => v.first.timeToFullDevices) h).trans hreach.2.1
      rw [← UInt64.sub_add_cancel now v.first.startTime, htime, UInt64.zero_add]
    · intro h
      have hzero : 0 = v.first.timeToFullDevices := hreach.2.1.symm
      simp only [Slots.modifyFirst, h hreach.1 hreach.2, UInt64.sub_self, hzero]
  · rw [if_neg hreach]
    exact iff_of_true rfl fun hm hr => absurd ⟨hm, hr⟩ hreach

theorem report_eq_self (hindex : index ≠ 0) :
    v.report master now simStatus index = v ↔ Repeats master now v simStatus index := by
  obtain ⟨k, hk⟩ := exists_toNat_eq_succ hindex
  by_cases hin : index.toNat < v.toList.length
  · have hkin : k < v.rest.length := by
      rw [hk] at hin
      exact Nat.lt_of_succ_lt_succ hin
    have hslot : v.toList[index.toNat]? = v.rest[k]? := by rw [hk]; rfl
    unfold Repeats
    rw [hslot, or_iff_right (Nat.not_le.mpr hin)]
    constructor
    · intro h
      have hrest : v.rest.set k simStatus = v.rest := by
        have hset := rest_report (v := v) master now index simStatus
        rw [h, hk] at hset
        exact hset.symm
      have hsame : v.set index.toNat simStatus = v := by
        rw [hk]
        simp only [Slots.set, hrest]
      refine ⟨?_, ?_⟩
      · rw [← hrest]
        exact List.getElem?_set_self hkin
      · rw [Slots.report, if_pos hin, hsame] at h
        exact updated_eq_self.mp h
    · rintro ⟨hget, htime⟩
      have hsame : v.set index.toNat simStatus = v := by
        obtain ⟨_, heq⟩ := List.getElem?_eq_some_iff.mp hget
        rw [hk, ← heq]
        simp only [Slots.set, List.set_getElem_self]
      rw [Slots.report, if_pos hin, hsame]
      exact updated_eq_self.mpr htime
  · have hout : v.toList.length ≤ index.toNat := Nat.not_lt.mp hin
    exact iff_of_true (report_of_length_le hout simStatus) (.inl hout)

theorem sameBut_report (hindex : index ≠ 0) :
    SameBut index.toNat v (v.report master now simStatus index) := by
  obtain ⟨k, hk⟩ := exists_toNat_eq_succ hindex
  have hrest : (v.report master now simStatus index).rest = v.rest.set k simStatus := by
    rw [rest_report, hk]
    rfl
  constructor
  · simp only [Slots.toList, List.length_cons, hrest, List.length_set]
  · rw [forgetTime_report, hk]
    rfl
  · intro j hj hjk
    obtain ⟨i, rfl⟩ := Nat.exists_eq_succ_of_ne_zero hj
    have hik : k ≠ i := fun h => hjk (by rw [hk, h])
    simp only [Slots.toList, List.getElem?_cons_succ, hrest]
    exact List.getElem?_set_ne hik

theorem framed_refl (id : String) (k : Nat) : Framed id k ss ss where
  others _ _ := rfl
  absent h := h
  own v hv := ⟨v, hv, rfl, rfl, fun _ _ _ => rfl⟩

theorem getElem?_updateRemoteStatus :
    (updateRemoteStatus master now ss simStatus index)[simStatus.id]? =
      (ss[simStatus.id]?).map (Slots.report master now simStatus index) :=
  getElem?_apply_self (.updateRemoteStatus now simStatus index)

theorem updateRemoteStatus_of_repeats (hindex : index ≠ 0)
    (h : ∀ v, ss[simStatus.id]? = some v → Repeats master now v simStatus index) :
    updateRemoteStatus master now ss simStatus index = ss := by
  apply Std.ExtTreeMap.ext_getElem?
  intro id
  by_cases hid : simStatus.id = id
  · rw [← hid, getElem?_updateRemoteStatus]
    cases hv : ss[simStatus.id]? with
    | none => rfl
    | some v => exact congrArg some ((report_eq_self hindex).mpr (h v hv))
  · exact getElem?_apply_of_ne (c := .updateRemoteStatus now simStatus index) hid

theorem updateRemoteStatus_framed (hindex : index ≠ 0) :
    Framed simStatus.id index.toNat ss (updateRemoteStatus master now ss simStatus index) := by
  constructor
  · exact fun id' hne => getElem?_apply_of_ne (c := .updateRemoteStatus now simStatus index) hne
  · intro hnone
    rw [getElem?_updateRemoteStatus, hnone, Option.map_none]
  · intro v hv
    refine ⟨v.report master now simStatus index, ?_, sameBut_report hindex⟩
    rw [getElem?_updateRemoteStatus, hv, Option.map_some]

/-- A PUT keeps to the slot that it is addressed to exactly when its body names the simulation
of its path, or repeats what is known of another one. -/
theorem put_framed_iff (master : Bool) (ss : Statuses) (r : Request V) :
    Framed r.id r.index.toNat ss (put master ss r) ↔ Addressed master ss r := by
  constructor
  · intro hframed simStatus hpasses
    by_cases hid : simStatus.id = r.id
    · exact .inl hid
    · refine .inr fun v hv => (report_eq_self hpasses.index_ne).mp ?_
      have hsame := hframed.others simStatus.id (Ne.symm hid)
      rw [put_of_passes hpasses, getElem?_updateRemoteStatus, hv, Option.map_some] at hsame
      exact Option.some.inj hsame
  · intro haddressed
    by_cases hrefused : ∀ simStatus, ¬ Passes r simStatus
    · rw [put_of_refused hrefused]
      exact framed_refl r.id r.index.toNat
    · push Not at hrefused
      obtain ⟨simStatus, hpasses⟩ := hrefused
      rw [put_of_passes hpasses]
      rcases haddressed simStatus hpasses with hid | hrepeats
      · rw [← hid]
        exact updateRemoteStatus_framed hpasses.index_ne
      · rw [updateRemoteStatus_of_repeats hpasses.index_ne hrepeats]
        exact framed_refl r.id r.index.toNat

end Put

open SimulationHandler in
def putOther : Request Plain :=
  { id := "a", parameters := [("index", "1")], body := some (bodyOf [("id", .text "b")]) }

theorem fits_one : [({} : MicroServiceMeta)].length + 1 < UInt64.size := by decide

def oneService : MicroServiceMetaVec := ⟨[{}], fits_one⟩

/-- A report for one simulation overwrites a slot of another. -/
theorem other_simulation_reported :
    ¬ ∀ (ss : Statuses) (r : Request SimulationHandler.Plain),
      Framed r.id r.index.toNat ss (put true ss r) := by
  intro h
  have hframed := h (startSim true 0 oneService (startSim true 0 oneService ∅ "a" {} {}) "b" {} {})
    putOther
  have hsame := hframed.others "b" (by decide)
  revert hsame
  decide

end StatusHandler

end Owls
