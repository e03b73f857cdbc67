import Owls.Base.Machine
import Owls.Base.Word
import Owls.Json
import Owls.Storage
import Owls.Validate

/-!
# `RESTAPI_simulation_handler`

The requests on the table of simulation definitions.
-/

open Machine

namespace Owls.SimulationHandler

open JsonValue
open SimulationDetails (fromJson assignPresent)

variable {V : Type} [JsonValue V]

/-- Whether the database serves the accesses of a request: finding the record, writing it,
and reading it again. -/
structure Served where
  found : Bool
  written : Bool
  reread : Bool

inductive Reply where
  | object (s : SimulationDetails)
  | ok
  | badRequest (e : Errors.Msg)
  | notFound

/-! ## The requests -/

/-- The final `GetRecord`, into a fresh object. -/
def reread (t : SimulationDB) (id : String) (db : Served) : SimulationDetails :=
  if db.reread then (t.getRecord id).getD {} else {}

def doPost (t : SimulationDB) (body : Option (JsonObject V)) (uuid : String) (db : Served) :
    Reply × SimulationDB :=
  match body.bind fromJson with
  | none => (.badRequest Errors.invalidJSONDocument, t)
  | some newSimulation =>
    if validateSimulation newSimulation then
      match (if db.written then t.createRecord { newSimulation with id := uuid } else none) with
      | some t' => (.object (reread t' uuid db), t')
      | none => (.badRequest Errors.missingOrInvalidParameters, t)
    else (.badRequest Errors.invalidJSONDocument, t)

def doDelete (t : SimulationDB) (id : String) (db : Served) : Reply × SimulationDB :=
  if id = "" then (.badRequest Errors.missingOrInvalidParameters, t)
  else if db.written then (.ok, t.deleteRecord id)
  else (.notFound, t)

def doPut (t : SimulationDB) (id : String) (body : Option (JsonObject V)) (db : Served) :
    Reply × SimulationDB :=
  if id = "" then (.badRequest Errors.missingOrInvalidParameters, t)
  else
    match body with
    -- `from_json` catches the access through a null pointer.
    | none => (.badRequest Errors.invalidJSONDocument, t)
    | some o =>
      match fromJson o with
      | none => (.badRequest Errors.invalidJSONDocument, t)
      | some newSimulation =>
        match (if db.found then t.getRecord id else none) with
        | none => (.notFound, t)
        | some existing =>
          match existing.assignPresent o with
          -- The exception ends in `handleRequest`.
          | none => (.badRequest Errors.internalError, t)
          | some existing =>
            if validateSimulation newSimulation then
              if db.written then
                -- The statement also sets the key, to the same `id`.
                let t' := t.put existing
                (.object (reread t' existing.id db), t')
              else (.notFound, t)
            else (.badRequest Errors.invalidJSONDocument, t)

inductive Event (V : Type) where
  | post (body : Option (JsonObject V)) (uuid : String) (db : Served)
  | put (id : String) (body : Option (JsonObject V)) (db : Served)
  | delete (id : String) (db : Served)

def step (t : SimulationDB) : Event V → Option SimulationDB
  | .post body uuid db => some (doPost t body uuid db).2
  | .put id body db => some (doPut t id body db).2
  | .delete id db => some (doDelete t id db).2

/-! ## What a request writes -/

structure PutAccepted (t : SimulationDB) (id : String) (o : JsonObject V) (db : Served)
    (s : SimulationDetails) : Prop where
  id_ne : id ≠ ""
  stored : t.getRecord id = some s
  served : db.found = true ∧ db.written = true
  valid : ∃ new, fromJson o = some new ∧ validateSimulation new = true
  converts : (s.assignPresent o).isSome

variable {o : JsonObject V} {s m : SimulationDetails} {t u : SimulationDB} {id : String}
  {db : Served}

theorem doPut_accepted (h : PutAccepted t id o db s) (hm : s.assignPresent o = some m) :
    (doPut t id (some o) db).2 = t.put m := by
  obtain ⟨new, hread, hvalid⟩ := h.valid
  simp [doPut, h.id_ne, hread, h.served, h.stored, hm, hvalid]

theorem doPut_cases (t : SimulationDB) (id : String) (body : Option (JsonObject V)) (db : Served) :
    (doPut t id body db).2 = t ∨
    ∃ o s m, body = some o ∧ PutAccepted t id o db s ∧ s.assignPresent o = some m := by
  unfold doPut
  split
  · exact .inl rfl
  rename_i hid
  cases body with
  | none => exact .inl rfl
  | some o =>
    cases hread : fromJson o with
    | none => exact .inl (by simp [hread])
    | some new =>
      cases hfound : (if db.found then t.getRecord id else none) with
      | none => exact .inl (by simp [hread])
      | some s =>
        cases hm : s.assignPresent o with
        | none => exact .inl (by simp [hread, hm])
        | some m =>
          by_cases hok : validateSimulation new = true ∧ db.written = true
          · refine .inr
              ⟨o, s, m, rfl, ⟨hid, ?_, ⟨?_, hok.2⟩, ⟨new, hread, hok.1⟩, by simp [hm]⟩, hm⟩
            all_goals split at hfound <;> simp_all
          · refine .inl ?_
            simp only [hread, hm]
            split <;> simp_all

theorem doPost_cases (t : SimulationDB) (body : Option (JsonObject V)) (uuid : String)
    (db : Served) :
    (doPost t body uuid db).2 = t ∨
    ∃ new, validateSimulation new = true ∧
      (doPost t body uuid db).2 = t.put { new with id := uuid } := by
  unfold doPost
  split
  · exact .inl rfl
  · rename_i new _
    by_cases hvalid : validateSimulation new = true
    · by_cases hdb : db.written ∧ t.getRecord uuid = none
      · exact .inr ⟨new, hvalid, by simp [hvalid, hdb, SimulationDB.createRecord]⟩
      · refine .inl ?_
        simp only [hvalid, SimulationDB.createRecord]
        split <;> simp_all
    · exact .inl (by simp [hvalid])

theorem doDelete_cases (t : SimulationDB) (id : String) (db : Served) :
    (doDelete t id db).2 = t ∨ (doDelete t id db).2 = t.deleteRecord id := by
  unfold doDelete
  split
  · exact .inl rfl
  · split
    · exact .inr rfl
    · exact .inl rfl

/-! ## Every stored definition is valid -/

def StoredValid (t : SimulationDB) : Prop :=
  ∀ id s, t.getRecord id = some s → validateSimulation s = true

/-- An accepted PUT leaves the bounds of each pair in order: the bounds of the body, and the
stored one where the body gives none. -/
def KeepsOrder (t : SimulationDB) : Event V → Prop
  | .put id (some o) db => ∀ s, PutAccepted t id o db s →
    (∀ lo hi, assignIfPresent toUInt64 o "minClients" s.minClients = some lo →
      assignIfPresent toUInt64 o "maxClients" s.maxClients = some hi → lo ≤ hi) ∧
    (∀ lo hi, assignIfPresent toUInt64 o "minAssociations" s.minAssociations = some lo →
      assignIfPresent toUInt64 o "maxAssociations" s.maxAssociations = some hi → lo ≤ hi)
  | _ => True

theorem validate_id (s : SimulationDetails) (id : String) :
    validateSimulation { s with id := id } = validateSimulation s := rfl

theorem StoredValid.put (h : StoredValid t) (hs : validateSimulation s = true) :
    StoredValid (t.put s) := by
  intro id s' hs'
  rcases SimulationDB.getRecord_put hs' with rfl | hs'
  · exact hs
  · exact h id s' hs'

theorem validFields_of_mixed {new : SimulationDetails} (hnew : ValidFields new)
    (hs : ValidFields s) (h : Mixed new s m) : ValidFields m where
  name := by rcases h.name with h | h <;> rw [h]; exacts [hnew.name, hs.name]
  gateway := by rcases h.gateway with h | h <;> rw [h]; exacts [hnew.gateway, hs.gateway]
  deviceType := by
    rcases h.deviceType with h | h <;> rw [h]; exacts [hnew.deviceType, hs.deviceType]
  devices := by rcases h.devices with h | h <;> rw [h]; exacts [hnew.devices, hs.devices]
  healthCheckInterval := by
    rcases h.healthCheckInterval with h | h <;> rw [h]
    exacts [hnew.healthCheckInterval, hs.healthCheckInterval]
  stateInterval := by
    rcases h.stateInterval with h | h <;> rw [h]; exacts [hnew.stateInterval, hs.stateInterval]
  minAssociations := by
    rcases h.minAssociations with h | h <;> rw [h]
    exacts [hnew.minAssociations, hs.minAssociations]
  maxAssociations := by
    rcases h.maxAssociations with h | h <;> rw [h]
    exacts [hnew.maxAssociations, hs.maxAssociations]
  minClients := by
    rcases h.minClients with h | h <;> rw [h]; exacts [hnew.minClients, hs.minClients]
  keepAlive := by rcases h.keepAlive with h | h <;> rw [h]; exacts [hnew.keepAlive, hs.keepAlive]
  reconnectInterval := by
    rcases h.reconnectInterval with h | h <;> rw [h]
    exacts [hnew.reconnectInterval, hs.reconnectInterval]
  concurrentDevices := by
    rcases h.concurrentDevices with h | h <;> rw [h]
    exacts [hnew.concurrentDevices, hs.concurrentDevices]
  threads := by rcases h.threads with h | h <;> rw [h]; exacts [hnew.threads, hs.threads]
  macPrefix := by rcases h.macPrefix with h | h <;> rw [h]; exacts [hnew.macPrefix, hs.macPrefix]

theorem step_storedValid {e : Event V} (h : StoredValid t) (hG : KeepsOrder t e)
    (hstep : step t e = some u) : StoredValid u := by
  cases e with
  | post body uuid db =>
    obtain rfl := Option.some.inj hstep
    rcases doPost_cases t body uuid db with hu | ⟨new, hvalid, hu⟩
    · rwa [hu]
    · rw [hu]
      exact h.put (by rw [validate_id]; exact hvalid)
  | delete id db =>
    obtain rfl := Option.some.inj hstep
    rcases doDelete_cases t id db with hu | hu
    · rwa [hu]
    · rw [hu]
      exact fun id' s hs => h id' s (SimulationDB.getRecord_deleteRecord hs)
  | put id body db =>
    obtain rfl := Option.some.inj hstep
    rcases doPut_cases t id body db with hu | ⟨o, s, m, rfl, hacc, hm⟩
    · rwa [hu]
    · rw [doPut_accepted hacc hm]
      obtain ⟨new, hread, hvalid⟩ := hacc.valid
      have hnew := ((validateSimulation_iff new).mp hvalid).1
      have hstored := ((validateSimulation_iff s).mp (h id s hacc.stored)).1
      have ha := assigned_of_assign hm
      obtain ⟨hclients, hassociations⟩ := hG s hacc
      exact h.put <| (validateSimulation_iff m).mpr
        ⟨validFields_of_mixed hnew hstored (mixed_of_assign hread hm),
          hclients _ _ ha.minClients ha.maxClients,
          hassociations _ _ ha.minAssociations ha.maxAssociations⟩

theorem keepsOrder_of_storedValid {e : Event V} (hstep : step t e = some u)
    (hu : StoredValid u) : KeepsOrder t e := by
  cases e with
  | post | delete => trivial
  | put id body db =>
    cases body with
    | none => trivial
    | some o =>
      intro s hacc
      obtain rfl := Option.some.inj hstep
      obtain ⟨m, hm⟩ := Option.isSome_iff_exists.mp hacc.converts
      have hvalid : validateSimulation m = true := by
        refine hu m.id m ?_
        rw [doPut_accepted hacc hm]
        exact SimulationDB.getRecord_put_self t m
      have hpairs := ((validateSimulation_iff m).mp hvalid).2
      have ha := assigned_of_assign hm
      constructor
      · intro lo hi hlo hhi
        cases ha.minClients.symm.trans hlo
        cases ha.maxClients.symm.trans hhi
        exact hpairs.clients
      · intro lo hi hlo hhi
        cases ha.minAssociations.symm.trans hlo
        cases ha.maxAssociations.symm.trans hhi
        exact hpairs.associations

/-- The table stays valid in exactly the runs in which no accepted PUT moves one bound of a
pair across the other. -/
theorem stored_valid_iff (es : List (Event V)) :
    Always step StoredValid {} es ↔ Steps step KeepsOrder {} es :=
  always_iff_steps (J := fun _ => True) trivial (fun _ _ h => nomatch h)
    (fun _ _ _ _ _ => trivial) (fun _ h => h) (fun _ _ _ _ h hG he => step_storedValid h hG he)
    (fun _ _ _ _ _ he hu => keepsOrder_of_storedValid he hu) es

/-! ## A definition whose bounds cross -/

inductive Plain where
  | text (s : String)
  | number (n : UInt64)

instance : JsonValue Plain where
  toText
    | .text s => some s
    | .number n => some (Word.toDecimal n)
  toUInt64
    | .text s => if Word.isNumber s then Word.ofDecimal? s else none
    | .number n => some n

def bodyOf (fields : List (String × Plain)) : JsonObject Plain := fun f =>
  (fields.lookup f).map some

def validBody (bounds : List (String × Plain)) : JsonObject Plain :=
  bodyOf ([("name", .text "s"), ("gateway", .text "gw"), ("deviceType", .text "x64_vm"),
    ("macPrefix", .text "aabbcc")] ++ bounds)

def postTwo : Event Plain :=
  .post (some (validBody [("minClients", .number 2), ("maxClients", .number 2)])) "id"
    ⟨true, true, true⟩

/-- The body alone is in order: its `minClients` is the default 1. -/
def putOne : Event Plain :=
  .put "id" (some (validBody [("maxClients", .number 1)])) ⟨true, true, true⟩

/-- The definition that the two requests leave has `minClients` 2 and `maxClients` 1. -/
theorem crossed_bounds_stored :
    ¬ ∀ es : List (Event Plain), Always step StoredValid {} es := by
  intro h
  have hlast := (h [postTwo, putOne]).here rfl "id" _ rfl
  exact absurd hlast (by decide)

end Owls.SimulationHandler
