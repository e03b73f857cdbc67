import Owls.SimulationHandler

/-!
# What a PUT merges

`from_json` decodes twenty fields of a body, and `DoPost` stores nineteen of them.
`DoPut` merges sixteen.
-/

namespace Owls

open JsonValue

variable {V α : Type} {convert : V → Option α} {o : JsonObject V} {field : String} {value v : α}

theorem fieldFromJson_of_assign (h : assignIfPresent convert o field value = some v) :
    fieldFromJson convert o field value = some v := by
  unfold assignIfPresent at h
  unfold fieldFromJson
  cases hx : o field with
  | none => simpa only [hx] using h
  | some x =>
    cases x with
    | none => simp only [hx] at h; cases h
    | some x => simpa only [hx] using h

variable [JsonValue V] {s m : SimulationDetails}

/-- The definition `m` is `s` with the fields of the body, `id` apart. -/
structure Merged (o : JsonObject V) (s m : SimulationDetails) : Prop where
  id : m.id = s.id
  name : fieldFromJson toText o "name" s.name = some m.name
  gateway : fieldFromJson toText o "gateway" s.gateway = some m.gateway
  certificate : fieldFromJson toText o "certificate" s.certificate = some m.certificate
  key : fieldFromJson toText o "key" s.key = some m.key
  macPrefix : fieldFromJson toText o "macPrefix" s.macPrefix = some m.macPrefix
  deviceType : fieldFromJson toText o "deviceType" s.deviceType = some m.deviceType
  devices : fieldFromJson toUInt64 o "devices" s.devices = some m.devices
  healthCheckInterval : fieldFromJson toUInt64 o "healthCheckInterval" s.healthCheckInterval =
    some m.healthCheckInterval
  stateInterval : fieldFromJson toUInt64 o "stateInterval" s.stateInterval = some m.stateInterval
  minAssociations :
    fieldFromJson toUInt64 o "minAssociations" s.minAssociations = some m.minAssociations
  maxAssociations :
    fieldFromJson toUInt64 o "maxAssociations" s.maxAssociations = some m.maxAssociations
  minClients : fieldFromJson toUInt64 o "minClients" s.minClients = some m.minClients
  maxClients : fieldFromJson toUInt64 o "maxClients" s.maxClients = some m.maxClients
  simulationLength :
    fieldFromJson toUInt64 o "simulationLength" s.simulationLength = some m.simulationLength
  threads : fieldFromJson toUInt64 o "threads" s.threads = some m.threads
  clientInterval : fieldFromJson toUInt64 o "clientInterval" s.clientInterval = some m.clientInterval
  keepAlive : fieldFromJson toUInt64 o "keepAlive" s.keepAlive = some m.keepAlive
  reconnectInterval :
    fieldFromJson toUInt64 o "reconnectInterval" s.reconnectInterval = some m.reconnectInterval
  concurrentDevices :
    fieldFromJson toUInt64 o "concurrentDevices" s.concurrentDevices = some m.concurrentDevices

/-- The fields that `DoPut` does not merge. -/
structure Untouched (s m : SimulationDetails) : Prop where
  id : m.id = s.id
  certificate : m.certificate = s.certificate
  key : m.key = s.key
  clientInterval : m.clientInterval = s.clientInterval

/-- The body gives a field that is not merged only the value that is stored already. -/
structure NothingToMerge (o : JsonObject V) (s : SimulationDetails) : Prop where
  certificate : fieldFromJson toText o "certificate" s.certificate = some s.certificate
  key : fieldFromJson toText o "key" s.key = some s.key
  clientInterval :
    fieldFromJson toUInt64 o "clientInterval" s.clientInterval = some s.clientInterval

theorem rest_of_assign (h : s.assignPresent o = some m) :
    Untouched s m ∧ assignIfPresent toUInt64 o "simulationLength" s.simulationLength =
      some m.simulationLength := by
  unfold SimulationDetails.assignPresent at h
  obtain ⟨_, -, h⟩ := Option.bind_eq_some_iff.mp h
  obtain ⟨_, -, h⟩ := Option.bind_eq_some_iff.mp h
  obtain ⟨_, -, h⟩ := Option.bind_eq_some_iff.mp h
  obtain ⟨_, -, h⟩ := Option.bind_eq_some_iff.mp h
  obtain ⟨_, -, h⟩ := Option.bind_eq_some_iff.mp h
  obtain ⟨_, -, h⟩ := Option.bind_eq_some_iff.mp h
  obtain ⟨_, -, h⟩ := Option.bind_eq_some_iff.mp h
  obtain ⟨_, -, h⟩ := Option.bind_eq_some_iff.mp h
  obtain ⟨_, -, h⟩ := Option.bind_eq_some_iff.mp h
  obtain ⟨_, -, h⟩ := Option.bind_eq_some_iff.mp h
  obtain ⟨_, -, h⟩ := Option.bind_eq_some_iff.mp h
  obtain ⟨_, hlength, h⟩ := Option.bind_eq_some_iff.mp h
  obtain ⟨_, -, h⟩ := Option.bind_eq_some_iff.mp h
  obtain ⟨_, -, h⟩ := Option.bind_eq_some_iff.mp h
  obtain ⟨_, -, h⟩ := Option.bind_eq_some_iff.mp h
  obtain ⟨_, -, h⟩ := Option.bind_eq_some_iff.mp h
  cases h
  exact ⟨⟨rfl, rfl, rfl, rfl⟩, hlength⟩

theorem merged_iff (h : s.assignPresent o = some m) : Merged o s m ↔ NothingToMerge o s := by
  obtain ⟨hkept, hlength⟩ := rest_of_assign h
  constructor
  · intro hm
    refine ⟨?_, ?_, ?_⟩
    · rw [hm.certificate, hkept.certificate]
    · rw [hm.key, hkept.key]
    · rw [hm.clientInterval, hkept.clientInterval]
  · intro hn
    have ha := assigned_of_assign h
    exact {
      id := hkept.id
      name := fieldFromJson_of_assign ha.name
      gateway := fieldFromJson_of_assign ha.gateway
      certificate := by rw [hn.certificate, hkept.certificate]
      key := by rw [hn.key, hkept.key]
      macPrefix := fieldFromJson_of_assign ha.macPrefix
      deviceType := fieldFromJson_of_assign ha.deviceType
      devices := fieldFromJson_of_assign ha.devices
      healthCheckInterval := fieldFromJson_of_assign ha.healthCheckInterval
      stateInterval := fieldFromJson_of_assign ha.stateInterval
      minAssociations := fieldFromJson_of_assign ha.minAssociations
      maxAssociations := fieldFromJson_of_assign ha.maxAssociations
      minClients := fieldFromJson_of_assign ha.minClients
      maxClients := fieldFromJson_of_assign ha.maxClients
      simulationLength := fieldFromJson_of_assign hlength
      threads := fieldFromJson_of_assign ha.threads
      clientInterval := by rw [hn.clientInterval, hkept.clientInterval]
      keepAlive := fieldFromJson_of_assign ha.keepAlive
      reconnectInterval := fieldFromJson_of_assign ha.reconnectInterval
      concurrentDevices := fieldFromJson_of_assign ha.concurrentDevices }

namespace SimulationHandler

variable {t : SimulationDB} {id : String} {db : Served}

theorem doPut_stores (h : PutAccepted t id o db s) :
    ∃ m, s.assignPresent o = some m ∧ (doPut t id (some o) db).2.getRecord id = some m := by
  obtain ⟨m, hm⟩ := Option.isSome_iff_exists.mp h.converts
  have hid : m.id = id := (rest_of_assign hm).1.id.trans (t.id_eq id s h.stored)
  refine ⟨m, hm, ?_⟩
  rw [doPut_accepted h hm, ← hid]
  exact SimulationDB.getRecord_put_self t m

/-- An accepted PUT stores the whole merge in exactly the cases in which its body leaves
`certificate`, `key` and `clientInterval` as they are. -/
theorem doPut_merges_iff (h : PutAccepted t id o db s) :
    ∃ m, (doPut t id (some o) db).2.getRecord id = some m ∧
      (Merged o s m ↔ NothingToMerge o s) := by
  obtain ⟨m, hm, hstored⟩ := doPut_stores h
  exact ⟨m, hstored, merged_iff hm⟩

def oneDefinition : SimulationDB := SimulationDB.empty.put { id := "id" }

theorem accepted_clientInterval :
    PutAccepted oneDefinition "id" (validBody [("clientInterval", .number 7)]) ⟨true, true, true⟩
      { id := "id" } where
  id_ne := by decide
  stored := SimulationDB.getRecord_put_self ..
  served := ⟨rfl, rfl⟩
  valid := ⟨_, rfl, by decide⟩
  converts := rfl

theorem doPut_merges_iff_clientInterval :
    ∃ m, (doPut oneDefinition "id" (some (validBody [("clientInterval", .number 7)]))
        ⟨true, true, true⟩).2.getRecord "id" = some m ∧
      (Merged (validBody [("clientInterval", .number 7)]) { id := "id" } m ↔
        NothingToMerge (validBody [("clientInterval", .number 7)]) { id := "id" }) :=
  doPut_merges_iff accepted_clientInterval

/-- The interval 7 of the body is accepted, and the stored one stays 1. -/
theorem clientInterval_ignored :
    ¬ ∀ (t : SimulationDB) (id : String) (o : JsonObject Plain) (db : Served)
        (s : SimulationDetails), PutAccepted t id o db s →
      ∃ m, (doPut t id (some o) db).2.getRecord id = some m ∧ Merged o s m := by
  intro h
  obtain ⟨m, hstored, hmerged⟩ := h _ _ _ _ _ accepted_clientInterval
  obtain ⟨m', hm', hstored'⟩ := doPut_stores accepted_clientInterval
  obtain rfl := Option.some.inj (hstored.symm.trans hstored')
  exact absurd ((merged_iff hm').mp hmerged).clientInterval (by decide)

end SimulationHandler

end Owls
