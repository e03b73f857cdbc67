import Owls.Objects

/-!
# JSON objects

The reading side of `Poco::JSON::Object`, with the helpers of `RESTAPI_utils` and
`RESTAPIHandler` that take a field out of one. The conversions of `Poco::Dynamic::Var` are
a parameter.
-/

namespace Owls

/-- What the values other than `null` convert to: `none` where the conversion throws. -/
class JsonValue (V : Type) where
  toText : V → Option String
  toUInt64 : V → Option UInt64

/-- A key is absent, holds `null`, or holds a value. -/
abbrev JsonObject (V : Type) := String → Option (Option V)

/-- Values that are made of a string or of a number, and convert back to it. -/
class JsonField (V : Type) extends JsonValue V where
  ofText : String → V
  ofUInt64 : UInt64 → V
  toText_ofText : ∀ s, toText (ofText s) = some s
  toUInt64_ofUInt64 : ∀ n, toUInt64 (ofUInt64 n) = some n

/-- The object with these fields. -/
def JsonObject.ofFields {V : Type} (fields : List (String × V)) : JsonObject V := fun field =>
  (fields.lookup field).map some

variable {V α : Type}

/-- `field_from_json`: skips an absent field, and `null`. -/
def fieldFromJson (convert : V → Option α) (o : JsonObject V) (field : String) (value : α) :
    Option α :=
  match o field with
  | some (some v) => convert v
  | _ => some value

/-- `AssignIfPresent`: skips an absent field. A `null` is present, and does not convert. -/
def assignIfPresent (convert : V → Option α) (o : JsonObject V) (field : String) (value : α) :
    Option α :=
  match o field with
  | some (some v) => convert v
  | some none => none
  | none => some value

/-- `Object::has`, which a `null` satisfies. -/
def hasField (o : JsonObject V) (field : String) : Bool := (o field).isSome

/-- `Object::get` and a conversion, which throws on an absent field and on `null`. -/
def getField (convert : V → Option α) (o : JsonObject V) (field : String) : Option α :=
  match o field with
  | some (some v) => convert v
  | _ => none

variable {convert : V → Option α} {o : JsonObject V} {field : String} {value dflt v w : α}

theorem getField_eq_some (h : getField convert o field = some v) :
    ∃ x, o field = some (some x) ∧ convert x = some v := by
  unfold getField at h
  split at h
  · rename_i x hx
    exact ⟨x, hx, h⟩
  · cases h

theorem hasField_of_getField (h : getField convert o field = some v) : hasField o field = true := by
  obtain ⟨x, hx, -⟩ := getField_eq_some h
  rw [hasField, hx]
  rfl

theorem assign_eq_or (hread : fieldFromJson convert o field dflt = some w)
    (hassign : assignIfPresent convert o field value = some v) : v = w ∨ v = value := by
  unfold fieldFromJson at hread
  unfold assignIfPresent at hassign
  split at hassign
  · rename_i x hx
    rw [hx] at hread
    exact .inl (Option.some.inj (hassign.symm.trans hread))
  · cases hassign
  · exact .inr (Option.some.inj hassign).symm

theorem fieldFromJson_ofText [JsonField V] {fields : List (String × V)} {text dflt : String}
    (h : fields.lookup field = some (JsonField.ofText text)) :
    fieldFromJson JsonValue.toText (JsonObject.ofFields fields) field dflt = some text := by
  rw [fieldFromJson, JsonObject.ofFields, h]
  exact JsonField.toText_ofText text

theorem fieldFromJson_ofUInt64 [JsonField V] {fields : List (String × V)} {number dflt : UInt64}
    (h : fields.lookup field = some (JsonField.ofUInt64 number)) :
    fieldFromJson JsonValue.toUInt64 (JsonObject.ofFields fields) field dflt = some number := by
  rw [fieldFromJson, JsonObject.ofFields, h]
  exact JsonField.toUInt64_ofUInt64 number

/-! ## Simulation definitions -/

variable [JsonValue V]

open JsonValue

def SimulationDetails.fromJson (o : JsonObject V) : Option SimulationDetails := do
  let s : SimulationDetails := {}
  let id ← fieldFromJson toText o "id" s.id
  let name ← fieldFromJson toText o "name" s.name
  let gateway ← fieldFromJson toText o "gateway" s.gateway
  let certificate ← fieldFromJson toText o "certificate" s.certificate
  let key ← fieldFromJson toText o "key" s.key
  let macPrefix ← fieldFromJson toText o "macPrefix" s.macPrefix
  let deviceType ← fieldFromJson toText o "deviceType" s.deviceType
  let devices ← fieldFromJson toUInt64 o "devices" s.devices
  let healthCheckInterval ←
    fieldFromJson toUInt64 o "healthCheckInterval" s.healthCheckInterval
  let stateInterval ← fieldFromJson toUInt64 o "stateInterval" s.stateInterval
  let minAssociations ← fieldFromJson toUInt64 o "minAssociations" s.minAssociations
  let maxAssociations ← fieldFromJson toUInt64 o "maxAssociations" s.maxAssociations
  let minClients ← fieldFromJson toUInt64 o "minClients" s.minClients
  let maxClients ← fieldFromJson toUInt64 o "maxClients" s.maxClients
  let simulationLength ← fieldFromJson toUInt64 o "simulationLength" s.simulationLength
  let threads ← fieldFromJson toUInt64 o "threads" s.threads
  let clientInterval ← fieldFromJson toUInt64 o "clientInterval" s.clientInterval
  let keepAlive ← fieldFromJson toUInt64 o "keepAlive" s.keepAlive
  let reconnectInterval ← fieldFromJson toUInt64 o "reconnectInterval" s.reconnectInterval
  let concurrentDevices ← fieldFromJson toUInt64 o "concurrentDevices" s.concurrentDevices
  return { id, name, gateway, certificate, key, macPrefix, deviceType, devices,
           healthCheckInterval, stateInterval, minAssociations, maxAssociations, minClients,
           maxClients, simulationLength, threads, clientInterval, keepAlive, reconnectInterval,
           concurrentDevices }

/-- The assignments of `RESTAPI_simulation_handler::DoPut` to the stored definition. -/
def SimulationDetails.assignPresent (o : JsonObject V) (s : SimulationDetails) :
    Option SimulationDetails := do
  let name ← assignIfPresent toText o "name" s.name
  let gateway ← assignIfPresent toText o "gateway" s.gateway
  let macPrefix ← assignIfPresent toText o "macPrefix" s.macPrefix
  let deviceType ← assignIfPresent toText o "deviceType" s.deviceType
  let devices ← assignIfPresent toUInt64 o "devices" s.devices
  let healthCheckInterval ←
    assignIfPresent toUInt64 o "healthCheckInterval" s.healthCheckInterval
  let stateInterval ← assignIfPresent toUInt64 o "stateInterval" s.stateInterval
  let minAssociations ← assignIfPresent toUInt64 o "minAssociations" s.minAssociations
  let maxAssociations ← assignIfPresent toUInt64 o "maxAssociations" s.maxAssociations
  let minClients ← assignIfPresent toUInt64 o "minClients" s.minClients
  let maxClients ← assignIfPresent toUInt64 o "maxClients" s.maxClients
  let simulationLength ← assignIfPresent toUInt64 o "simulationLength" s.simulationLength
  let threads ← assignIfPresent toUInt64 o "threads" s.threads
  let keepAlive ← assignIfPresent toUInt64 o "keepAlive" s.keepAlive
  let reconnectInterval ← assignIfPresent toUInt64 o "reconnectInterval" s.reconnectInterval
  let concurrentDevices ← assignIfPresent toUInt64 o "concurrentDevices" s.concurrentDevices
  return { s with name, gateway, macPrefix, deviceType, devices, healthCheckInterval,
                  stateInterval, minAssociations, maxAssociations, minClients, maxClients,
                  simulationLength, threads, keepAlive, reconnectInterval, concurrentDevices }

/-! ## Fields of an assigned definition -/

variable {s new m : SimulationDetails}

/-- Each checked field of `m` is one of the document's, or one of the stored definition's. -/
structure Mixed (new s m : SimulationDetails) : Prop where
  name : m.name = new.name ∨ m.name = s.name
  gateway : m.gateway = new.gateway ∨ m.gateway = s.gateway
  macPrefix : m.macPrefix = new.macPrefix ∨ m.macPrefix = s.macPrefix
  deviceType : m.deviceType = new.deviceType ∨ m.deviceType = s.deviceType
  devices : m.devices = new.devices ∨ m.devices = s.devices
  healthCheckInterval : m.healthCheckInterval = new.healthCheckInterval ∨
    m.healthCheckInterval = s.healthCheckInterval
  stateInterval : m.stateInterval = new.stateInterval ∨ m.stateInterval = s.stateInterval
  minAssociations : m.minAssociations = new.minAssociations ∨
    m.minAssociations = s.minAssociations
  maxAssociations : m.maxAssociations = new.maxAssociations ∨
    m.maxAssociations = s.maxAssociations
  minClients : m.minClients = new.minClients ∨ m.minClients = s.minClients
  threads : m.threads = new.threads ∨ m.threads = s.threads
  keepAlive : m.keepAlive = new.keepAlive ∨ m.keepAlive = s.keepAlive
  reconnectInterval : m.reconnectInterval = new.reconnectInterval ∨
    m.reconnectInterval = s.reconnectInterval
  concurrentDevices : m.concurrentDevices = new.concurrentDevices ∨
    m.concurrentDevices = s.concurrentDevices

structure Assigned (o : JsonObject V) (s m : SimulationDetails) : Prop where
  name : assignIfPresent toText o "name" s.name = some m.name
  gateway : assignIfPresent toText o "gateway" s.gateway = some m.gateway
  macPrefix : assignIfPresent toText o "macPrefix" s.macPrefix = some m.macPrefix
  deviceType : assignIfPresent toText o "deviceType" s.deviceType = some m.deviceType
  devices : assignIfPresent toUInt64 o "devices" s.devices = some m.devices
  healthCheckInterval : assignIfPresent toUInt64 o "healthCheckInterval" s.healthCheckInterval =
    some m.healthCheckInterval
  stateInterval : assignIfPresent toUInt64 o "stateInterval" s.stateInterval = some m.stateInterval
  minAssociations :
    assignIfPresent toUInt64 o "minAssociations" s.minAssociations = some m.minAssociations
  maxAssociations :
    assignIfPresent toUInt64 o "maxAssociations" s.maxAssociations = some m.maxAssociations
  minClients : assignIfPresent toUInt64 o "minClients" s.minClients = some m.minClients
  maxClients : assignIfPresent toUInt64 o "maxClients" s.maxClients = some m.maxClients
  threads : assignIfPresent toUInt64 o "threads" s.threads = some m.threads
  keepAlive : assignIfPresent toUInt64 o "keepAlive" s.keepAlive = some m.keepAlive
  reconnectInterval :
    assignIfPresent toUInt64 o "reconnectInterval" s.reconnectInterval = some m.reconnectInterval
  concurrentDevices :
    assignIfPresent toUInt64 o "concurrentDevices" s.concurrentDevices = some m.concurrentDevices

theorem assigned_of_assign (h : s.assignPresent o = some m) : Assigned o s m := by
  unfold SimulationDetails.assignPresent at h
  obtain ⟨_, name, h⟩ := Option.bind_eq_some_iff.mp h
  obtain ⟨_, gateway, h⟩ := Option.bind_eq_some_iff.mp h
  obtain ⟨_, macPrefix, h⟩ := Option.bind_eq_some_iff.mp h
  obtain ⟨_, deviceType, h⟩ := Option.bind_eq_some_iff.mp h
  obtain ⟨_, devices, h⟩ := Option.bind_eq_some_iff.mp h
  obtain ⟨_, healthCheckInterval, h⟩ := Option.bind_eq_some_iff.mp h
  obtain ⟨_, stateInterval, h⟩ := Option.bind_eq_some_iff.mp h
  obtain ⟨_, minAssociations, h⟩ := Option.bind_eq_some_iff.mp h
  obtain ⟨_, maxAssociations, h⟩ := Option.bind_eq_some_iff.mp h
  obtain ⟨_, minClients, h⟩ := Option.bind_eq_some_iff.mp h
  obtain ⟨_, maxClients, h⟩ := Option.bind_eq_some_iff.mp h
  obtain ⟨_, -, h⟩ := Option.bind_eq_some_iff.mp h
  obtain ⟨_, threads, h⟩ := Option.bind_eq_some_iff.mp h
  obtain ⟨_, keepAlive, h⟩ := Option.bind_eq_some_iff.mp h
  obtain ⟨_, reconnectInterval, h⟩ := Option.bind_eq_some_iff.mp h
  obtain ⟨_, concurrentDevices, h⟩ := Option.bind_eq_some_iff.mp h
  cases h
  exact ⟨name, gateway, macPrefix, deviceType, devices, healthCheckInterval, stateInterval,
    minAssociations, maxAssociations, minClients, maxClients, threads, keepAlive, reconnectInterval,
    concurrentDevices⟩

theorem mixed_of_assign (hread : SimulationDetails.fromJson o = some new)
    (hassign : s.assignPresent o = some m) : Mixed new s m := by
  have hm := assigned_of_assign hassign
  unfold SimulationDetails.fromJson at hread
  obtain ⟨_, -, hread⟩ := Option.bind_eq_some_iff.mp hread
  obtain ⟨_, name, hread⟩ := Option.bind_eq_some_iff.mp hread
  obtain ⟨_, gateway, hread⟩ := Option.bind_eq_some_iff.mp hread
  obtain ⟨_, -, hread⟩ := Option.bind_eq_some_iff.mp hread
  obtain ⟨_, -, hread⟩ := Option.bind_eq_some_iff.mp hread
  obtain ⟨_, macPrefix, hread⟩ := Option.bind_eq_some_iff.mp hread
  obtain ⟨_, deviceType, hread⟩ := Option.bind_eq_some_iff.mp hread
  obtain ⟨_, devices, hread⟩ := Option.bind_eq_some_iff.mp hread
  obtain ⟨_, healthCheckInterval, hread⟩ := Option.bind_eq_some_iff.mp hread
  obtain ⟨_, stateInterval, hread⟩ := Option.bind_eq_some_iff.mp hread
  obtain ⟨_, minAssociations, hread⟩ := Option.bind_eq_some_iff.mp hread
  obtain ⟨_, maxAssociations, hread⟩ := Option.bind_eq_some_iff.mp hread
  obtain ⟨_, minClients, hread⟩ := Option.bind_eq_some_iff.mp hread
  obtain ⟨_, -, hread⟩ := Option.bind_eq_some_iff.mp hread
  obtain ⟨_, -, hread⟩ := Option.bind_eq_some_iff.mp hread
  obtain ⟨_, threads, hread⟩ := Option.bind_eq_some_iff.mp hread
  obtain ⟨_, -, hread⟩ := Option.bind_eq_some_iff.mp hread
  obtain ⟨_, keepAlive, hread⟩ := Option.bind_eq_some_iff.mp hread
  obtain ⟨_, reconnectInterval, hread⟩ := Option.bind_eq_some_iff.mp hread
  obtain ⟨_, concurrentDevices, hread⟩ := Option.bind_eq_some_iff.mp hread
  cases hread
  exact ⟨assign_eq_or name hm.name, assign_eq_or gateway hm.gateway,
    assign_eq_or macPrefix hm.macPrefix, assign_eq_or deviceType hm.deviceType,
    assign_eq_or devices hm.devices, assign_eq_or healthCheckInterval hm.healthCheckInterval,
    assign_eq_or stateInterval hm.stateInterval, assign_eq_or minAssociations hm.minAssociations,
    assign_eq_or maxAssociations hm.maxAssociations, assign_eq_or minClients hm.minClients,
    assign_eq_or threads hm.threads, assign_eq_or keepAlive hm.keepAlive,
    assign_eq_or reconnectInterval hm.reconnectInterval,
    assign_eq_or concurrentDevices hm.concurrentDevices⟩

end Owls
