import Owls.Base.Rows
import Owls.Reports

/-!
# The columns of the tables

`storage_simulations` and `storage_results`: the columns of each table, the tuple that stands
for a row, and the two `Convert` between a record and its row.
-/

open Rows

namespace Owls

/-! ## ORM -/

namespace ORM

inductive FieldType where
  | int | bigint | text | varchar | blob | boolean | real
deriving DecidableEq

structure Field where
  name : String
  type : FieldType
  size : Nat := 0
  index : Bool := false

def Field.sized (name : String) (size : Nat) (index : Bool) : Field :=
  { name, type := if 0 < size ∧ size < 255 then .varchar else .text, size, index }

/-- The type of a slot of a `Poco::Tuple`: `std::string` or `uint64_t`. -/
inductive SlotType where
  | text
  | number
deriving DecidableEq

abbrev SlotType.El : SlotType → Type
  | .text => String
  | .number => UInt64

def FieldType.slot : FieldType → Option SlotType
  | .text | .varchar => some .text
  | .int | .bigint => some .number
  | .blob | .boolean | .real => none

abbrev Slot := Value SlotType.El

def text (s : String) : Slot := ⟨.text, s⟩

def number (n : UInt64) : Slot := ⟨.number, n⟩

def member (members : List (String × Slot)) (name : String) : Option Slot := members.lookup name

end ORM

open ORM (Field Slot SlotType text number member)
open JsonField (ofText ofUInt64)

/-! ## Simulation definitions -/

def simulationDB_Fields : List Field :=
  [.sized "id" 64 true, ⟨"name", .text, 0, false⟩, ⟨"gateway", .text, 0, false⟩,
   ⟨"certificate", .text, 0, false⟩, ⟨"key", .text, 0, false⟩, ⟨"macPrefix", .text, 0, false⟩,
   ⟨"devices", .bigint, 0, false⟩, ⟨"healthCheckInterval", .bigint, 0, false⟩,
   ⟨"stateInterval", .bigint, 0, false⟩, ⟨"minAssociations", .bigint, 0, false⟩,
   ⟨"maxAssociations", .bigint, 0, false⟩, ⟨"minClients", .bigint, 0, false⟩,
   ⟨"maxClients", .bigint, 0, false⟩, ⟨"simulationLength", .bigint, 0, false⟩,
   ⟨"threads", .bigint, 0, false⟩, ⟨"clientInterval", .bigint, 0, false⟩,
   ⟨"keepAlive", .bigint, 0, false⟩, ⟨"reconnectInterval", .bigint, 0, false⟩,
   ⟨"deviceType", .text, 0, false⟩, ⟨"concurrentDevices", .bigint, 0, false⟩]

def simulationDBSlots : List SlotType :=
  [.text, .text, .text, .text, .text, .text, .number, .number, .number, .number, .number,
   .number, .number, .number, .number, .number, .number, .number, .text, .number]

abbrev SimulationDBRecordType := Tuple SlotType.El simulationDBSlots

namespace SimulationDetails

variable {V : Type} [JsonField V]

def members (d : SimulationDetails) : List (String × Slot) :=
  [("id", text d.id), ("name", text d.name), ("gateway", text d.gateway),
   ("certificate", text d.certificate), ("key", text d.key), ("macPrefix", text d.macPrefix),
   ("deviceType", text d.deviceType), ("devices", number d.devices),
   ("healthCheckInterval", number d.healthCheckInterval),
   ("stateInterval", number d.stateInterval), ("minAssociations", number d.minAssociations),
   ("maxAssociations", number d.maxAssociations), ("minClients", number d.minClients),
   ("maxClients", number d.maxClients), ("simulationLength", number d.simulationLength),
   ("threads", number d.threads), ("clientInterval", number d.clientInterval),
   ("keepAlive", number d.keepAlive), ("reconnectInterval", number d.reconnectInterval),
   ("concurrentDevices", number d.concurrentDevices)]

def toJson (d : SimulationDetails) : List (String × V) :=
  [("id", ofText d.id), ("name", ofText d.name), ("gateway", ofText d.gateway),
   ("certificate", ofText d.certificate), ("key", ofText d.key), ("macPrefix", ofText d.macPrefix),
   ("deviceType", ofText d.deviceType), ("devices", ofUInt64 d.devices),
   ("healthCheckInterval", ofUInt64 d.healthCheckInterval),
   ("stateInterval", ofUInt64 d.stateInterval), ("minAssociations", ofUInt64 d.minAssociations),
   ("maxAssociations", ofUInt64 d.maxAssociations), ("minClients", ofUInt64 d.minClients),
   ("maxClients", ofUInt64 d.maxClients), ("simulationLength", ofUInt64 d.simulationLength),
   ("threads", ofUInt64 d.threads), ("clientInterval", ofUInt64 d.clientInterval),
   ("keepAlive", ofUInt64 d.keepAlive), ("reconnectInterval", ofUInt64 d.reconnectInterval),
   ("concurrentDevices", ofUInt64 d.concurrentDevices)]

/-- `Convert` to a row. -/
def toRecord (d : SimulationDetails) : SimulationDBRecordType :=
  (d.id, d.name, d.gateway, d.certificate, d.key, d.macPrefix, d.devices, d.healthCheckInterval,
   d.stateInterval, d.minAssociations, d.maxAssociations, d.minClients, d.maxClients,
   d.simulationLength, d.threads, d.clientInterval, d.keepAlive, d.reconnectInterval,
   d.deviceType, d.concurrentDevices, ())

/-- `Convert` from a row, which sets every member. -/
def ofRecord (r : SimulationDBRecordType) : SimulationDetails :=
  { id := r.get 0, name := r.get 1, gateway := r.get 2, certificate := r.get 3, key := r.get 4,
    macPrefix := r.get 5, devices := r.get 6, healthCheckInterval := r.get 7,
    stateInterval := r.get 8, minAssociations := r.get 9, maxAssociations := r.get 10,
    minClients := r.get 11, maxClients := r.get 12, simulationLength := r.get 13,
    threads := r.get 14, clientInterval := r.get 15, keepAlive := r.get 16,
    reconnectInterval := r.get 17, deviceType := r.get 18, concurrentDevices := r.get 19 }

theorem aligned :
    Aligned (simulationDB_Fields.map (·.name)) (fun d => member (members d)) toRecord ofRecord :=
  aligned_iff.mpr ⟨fun _ => rfl, fun _ => rfl⟩

theorem ofRecord_toRecord (d : SimulationDetails) : ofRecord (toRecord d) = d := rfl

theorem fromJson_toJson (d : SimulationDetails) :
    fromJson (JsonObject.ofFields (V := V) d.toJson) = some d := by
  unfold fromJson
  refine Option.bind_eq_some_iff.mpr ⟨_, fieldFromJson_ofText rfl, ?_⟩
  refine Option.bind_eq_some_iff.mpr ⟨_, fieldFromJson_ofText rfl, ?_⟩
  refine Option.bind_eq_some_iff.mpr ⟨_, fieldFromJson_ofText rfl, ?_⟩
  refine Option.bind_eq_some_iff.mpr ⟨_, fieldFromJson_ofText rfl, ?_⟩
  refine Option.bind_eq_some_iff.mpr ⟨_, fieldFromJson_ofText rfl, ?_⟩
  refine Option.bind_eq_some_iff.mpr ⟨_, fieldFromJson_ofText rfl, ?_⟩
  refine Option.bind_eq_some_iff.mpr ⟨_, fieldFromJson_ofText rfl, ?_⟩
  refine Option.bind_eq_some_iff.mpr ⟨_, fieldFromJson_ofUInt64 rfl, ?_⟩
  refine Option.bind_eq_some_iff.mpr ⟨_, fieldFromJson_ofUInt64 rfl, ?_⟩
  refine Option.bind_eq_some_iff.mpr ⟨_, fieldFromJson_ofUInt64 rfl, ?_⟩
  refine Option.bind_eq_some_iff.mpr ⟨_, fieldFromJson_ofUInt64 rfl, ?_⟩
  refine Option.bind_eq_some_iff.mpr ⟨_, fieldFromJson_ofUInt64 rfl, ?_⟩
  refine Option.bind_eq_some_iff.mpr ⟨_, fieldFromJson_ofUInt64 rfl, ?_⟩
  refine Option.bind_eq_some_iff.mpr ⟨_, fieldFromJson_ofUInt64 rfl, ?_⟩
  refine Option.bind_eq_some_iff.mpr ⟨_, fieldFromJson_ofUInt64 rfl, ?_⟩
  refine Option.bind_eq_some_iff.mpr ⟨_, fieldFromJson_ofUInt64 rfl, ?_⟩
  refine Option.bind_eq_some_iff.mpr ⟨_, fieldFromJson_ofUInt64 rfl, ?_⟩
  refine Option.bind_eq_some_iff.mpr ⟨_, fieldFromJson_ofUInt64 rfl, ?_⟩
  refine Option.bind_eq_some_iff.mpr ⟨_, fieldFromJson_ofUInt64 rfl, ?_⟩
  refine Option.bind_eq_some_iff.mpr ⟨_, fieldFromJson_ofUInt64 rfl, ?_⟩
  rfl

/-- A definition survives its document and its row, and at every position the columns, the tuple
and both conversions are about the same member. -/
theorem restored_and_aligned (d : SimulationDetails) :
    fromJson (JsonObject.ofFields (V := V) d.toJson) = some d ∧
      ofRecord (toRecord d) = d ∧
      simulationDB_Fields.map (·.type.slot) = simulationDBSlots.map some ∧
      Aligned (simulationDB_Fields.map (·.name)) (fun d => member (members d)) toRecord ofRecord :=
  ⟨fromJson_toJson d, ofRecord_toRecord d, by decide, aligned⟩

end SimulationDetails

/-! ## Results -/

def simulationResultsDB_Fields : List Field :=
  [.sized "id" 64 true, ⟨"simulationId", .text, 0, false⟩, ⟨"state", .text, 0, false⟩,
   ⟨"tx", .bigint, 0, false⟩, ⟨"rx", .bigint, 0, false⟩, ⟨"msgsTx", .bigint, 0, false⟩,
   ⟨"msgsRx", .bigint, 0, false⟩, ⟨"liveDevices", .bigint, 0, false⟩,
   ⟨"timeToFullDevices", .bigint, 0, false⟩, ⟨"startTime", .bigint, 0, false⟩,
   ⟨"endTime", .bigint, 0, false⟩, ⟨"errorDevices", .bigint, 0, false⟩,
   ⟨"owner", .text, 0, false⟩]

def simulationResultsDBSlots : List SlotType :=
  [.text, .text, .text, .number, .number, .number, .number, .number, .number, .number, .number,
   .number, .text]

abbrev SimulationResultsDBRecordType := Tuple SlotType.El simulationResultsDBSlots

namespace SimulationStatus

def members (s : SimulationStatus) : List (String × Slot) :=
  [("id", text s.id), ("simulationId", text s.simulationId), ("state", text s.state),
   ("owner", text s.owner), ("tx", number s.tx), ("rx", number s.rx),
   ("msgsTx", number s.msgsTx), ("msgsRx", number s.msgsRx),
   ("liveDevices", number s.liveDevices), ("timeToFullDevices", number s.timeToFullDevices),
   ("startTime", number s.startTime), ("endTime", number s.endTime),
   ("errorDevices", number s.errorDevices), ("expectedDevices", number s.expectedDevices)]

def toRecord (s : SimulationStatus) : SimulationResultsDBRecordType :=
  (s.id, s.simulationId, s.state, s.tx, s.rx, s.msgsTx, s.msgsRx, s.liveDevices,
   s.timeToFullDevices, s.startTime, s.endTime, s.errorDevices, s.owner, ())

/-- `Convert` from a row, into a record that is there. -/
def ofRecord (r : SimulationResultsDBRecordType) (out : SimulationStatus) : SimulationStatus :=
  { out with
    id := r.get 0, simulationId := r.get 1, state := r.get 2, tx := r.get 3, rx := r.get 4,
    msgsTx := r.get 5, msgsRx := r.get 6, liveDevices := r.get 7, timeToFullDevices := r.get 8,
    startTime := r.get 9, endTime := r.get 10, errorDevices := r.get 11, owner := r.get 12 }

def published (V : Type) [JsonField V] (s : SimulationStatus) : List String :=
  (s.toJson (V := V)).map (·.1)

theorem aligned :
    Aligned (simulationResultsDB_Fields.map (·.name)) (fun s => member (members s)) toRecord
      (ofRecord · {}) :=
  aligned_iff.mpr ⟨fun _ => rfl, fun _ => rfl⟩

theorem ofRecord_toRecord (s : SimulationStatus) : ofRecord (toRecord s) {} = s.row := rfl

variable {V : Type} [JsonField V]

/-- The positions agree, and a result comes back with all it publishes in exactly the cases in
which it expects no devices: that field has no column. -/
theorem restored_iff (s : SimulationStatus) :
    (∀ c ∈ published V s, member (members (ofRecord (toRecord s) {})) c = member (members s) c) ∧
      simulationResultsDB_Fields.map (·.type.slot) = simulationResultsDBSlots.map some ∧
      Aligned (simulationResultsDB_Fields.map (·.name)) (fun s => member (members s)) toRecord
        (ofRecord · {}) ↔
      s.expectedDevices = 0 := by
  rw [and_iff_left ⟨by decide, aligned⟩, aligned.restores_iff s]
  constructor
  · intro h
    have hexpected := h "expectedDevices" (by simp [published, toJson]) (by decide)
    have hnumber : number 0 = number s.expectedDevices := Option.some.inj hexpected
    exact (eq_of_heq (Sigma.mk.inj hnumber).2).symm
  · intro h
    have hrow : ofRecord (toRecord s) {} = s := by
      rw [ofRecord_toRecord, row, ← h]
    intro c _ _
    simp only [hrow]

theorem expectedDevices_lost :
    ¬ ∀ s : SimulationStatus,
      (∀ c ∈ published SimulationHandler.Plain s,
        member (members (ofRecord (toRecord s) {})) c = member (members s) c) ∧
      simulationResultsDB_Fields.map (·.type.slot) = simulationResultsDBSlots.map some ∧
      Aligned (simulationResultsDB_Fields.map (·.name)) (fun s => member (members s)) toRecord
        (ofRecord · {}) := by
  intro h
  have hexpected := (h { expectedDevices := 1 }).1 "expectedDevices"
    (by simp [published, toJson])
  have hnumber : number 0 = number 1 := Option.some.inj hexpected
  exact absurd (eq_of_heq (Sigma.mk.inj hnumber).2) (by decide)

end SimulationStatus

end Owls
