import Owls.Base.Word
import Owls.Json

/-!
# Commands from the gateway

`SimulationRunner::OnSocketReadable` and `ProcessCommand` on a text frame, and the handlers of
`OWLSclient` up to their reply.
-/

namespace Owls

/-- Values some of which are objects. -/
class JsonTree (V : Type) extends JsonField V where
  toObject : V → Option (JsonObject V)

namespace Commands

open JsonValue JsonField JsonTree

variable {V : Type} [JsonTree V]

/-! ## Objects -/

/-- `Object::getObject`, and `none` where `isObject` is false. -/
def getObject (o : JsonObject V) (field : String) : Option (JsonObject V) :=
  getField toObject o field

/-! ## The handlers -/

/-- What the handlers read and write of an `OWLSclient`. -/
structure Client (V : Type) where
  serialNumber : String := ""
  firmware : String := "sim-firmware-1"
  active : UInt64 := 0
  uuid : UInt64 := 0
  version : UInt64 := 0
  currentConfig : Option (JsonObject V) := none
  healthInterval : UInt64 := 60
  statisticsInterval : UInt64 := 60

/-- The `result` of a JSON-RPC 2.0 answer, with its `status`. -/
structure Reply where
  id : UInt64
  serial : String
  uuid : Option UInt64 := none
  error : UInt64 := 0
  text : String := "Success"
deriving DecidableEq

def success (c : Client V) (id : UInt64) (serial : String) : Reply := { id, serial, uuid := c.uuid }

/-- One of the two intervals in the metrics of a configuration. `none`: an exception. -/
def interval (metrics : JsonObject V) (field : String) (value : UInt64) : Option UInt64 :=
  match getObject metrics field with
  | none => some value
  | some o => getField toUInt64 o "interval"

/-- The client, and whether it got to the end. -/
def readMetrics (c : Client V) (metrics : JsonObject V) : Client V × Bool :=
  match interval metrics "health" c.healthInterval with
  | none => (c, false)
  | some healthInterval =>
    let c := { c with healthInterval }
    match interval metrics "statistics" c.statisticsInterval with
    | none => (c, false)
    | some statisticsInterval => ({ c with statisticsInterval }, true)

def doConfigure (c : Client V) (id : UInt64) (params : JsonObject V) : Client V × Option Reply :=
  if hasField params "serial" && hasField params "config" && hasField params "uuid" then
    match getField toText params "serial", getField toUInt64 params "uuid" with
    | some serial, some newUUID =>
      let configuration := getObject params "config"
      let c := { c with uuid := newUUID, active := newUUID, currentConfig := configuration }
      match configuration with
      -- A null pointer, whose use throws.
      | none => (c, none)
      | some configuration =>
        match getObject configuration "metrics" with
        | none => (c, some (success c id serial))
        | some metrics =>
          let (c, completed) := readMetrics c metrics
          (c, if completed then some (success c id serial) else none)
    | _, _ => (c, none)
  else (c, none)

def doReboot (c : Client V) (id : UInt64) (params : JsonObject V) : Option Reply :=
  if hasField params "serial" && hasField params "when" then
    (getField toText params "serial").map (success c id)
  else none

def doUpgrade (c : Client V) (id : UInt64) (params : JsonObject V) : Option Reply :=
  if hasField params "serial" && hasField params "uri" then do
    let serial ← getField toText params "serial"
    let _uri ← getField toText params "uri"
    return success c id serial
  else none

def doFactory (c : Client V) (id : UInt64) (params : JsonObject V) : Client V × Option Reply :=
  if hasField params "serial" && hasField params "when" then
    match getField toText params "serial" with
    | none => (c, none)
    | some serial =>
      let c := { c with version := 1, firmware := "sim-firmware-1" }
      (c, some (success c id serial))
  else (c, none)

def doLEDs (c : Client V) (id : UInt64) (params : JsonObject V) : Option Reply :=
  if hasField params "serial" && hasField params "pattern" then do
    let serial ← getField toText params "serial"
    let _pattern ← getField toText params "pattern"
    -- It tests one name and converts another, as the source does.
    let _duration ← if hasField params "when" then getField toUInt64 params "durarion" else some 10
    return success c id serial
  else none

def unSupportedCommand (c : Client V) (id : UInt64) : Reply :=
  { id, serial := c.serialNumber, error := 1, text := "Command not supported" }

/-! ## The dispatch -/

/-- What a handler does with its parameters: through a null pointer, it throws. -/
def withParams (c : Client V) (params : Option (JsonObject V))
    (handler : JsonObject V → Client V × Option Reply) : Client V × Option Reply :=
  match params with
  | none => (c, none)
  | some params => handler params

def processCommand (c : Client V) (frame : JsonObject V) : Client V × Option Reply :=
  match getField toText frame "method", getField toUInt64 frame "id" with
  | some method, some id =>
    let params := getObject frame "params"
    match method with
    | "configure" => withParams c params (doConfigure c id)
    | "reboot" => withParams c params fun params => (c, doReboot c id params)
    | "upgrade" => withParams c params fun params => (c, doUpgrade c id params)
    | "factory" => withParams c params (doFactory c id)
    | "leds" => withParams c params fun params => (c, doLEDs c id params)
    | _ => (c, some (unSupportedCommand c id))
  | _, _ => (c, none)

/-- A text frame that is a JSON object, and the replies that are sent for it. -/
def onText (c : Client V) (frame : JsonObject V) : Client V × List Reply :=
  if hasField frame "jsonrpc" && hasField frame "id" && hasField frame "method" &&
      hasField frame "params" then
    let (c, reply) := processCommand c frame
    (c, reply.toList)
  else (c, [])

/-! ## What a frame must carry -/

def requiredFields : String → List String
  | "configure" => ["serial", "uuid", "config"]
  | "reboot" | "factory" => ["serial", "when"]
  | "upgrade" => ["serial", "uri"]
  | "leds" => ["serial", "pattern"]
  | _ => []

/-- The parameters have the fields that the method's handler asks for. -/
structure Carries (method : String) (params : JsonObject V) : Prop where
  fields : ∀ field ∈ requiredFields method, hasField params field = true
  config : method = "configure" → (getObject params "config").isSome

structure Complete (frame : JsonObject V) : Prop where
  header : ∀ field ∈ ["jsonrpc", "id", "method"], hasField frame field = true
  params : ∃ params, getObject frame "params" = some params ∧
    ∀ method, getField toText frame "method" = some method → Carries method params

/-- What the handler of the method converts is there, and converts. -/
def Converts (method : String) (params : JsonObject V) : Prop :=
  match method with
  | "configure" =>
    (getField toText params "serial").isSome ∧ (getField toUInt64 params "uuid").isSome ∧
    ∀ metrics, (getObject params "config").bind (getObject · "metrics") = some metrics →
      ∀ field ∈ ["health", "statistics"], ∀ o, getObject metrics field = some o →
        (getField toUInt64 o "interval").isSome
  | "reboot" | "factory" => (getField toText params "serial").isSome
  | "upgrade" => (getField toText params "serial").isSome ∧ (getField toText params "uri").isSome
  | "leds" => (getField toText params "serial").isSome ∧ (getField toText params "pattern").isSome ∧
    (hasField params "when" = true → (getField toUInt64 params "durarion").isSome)
  | _ => True

/-- The id is a number, the method is a text, and what its handler reads converts. -/
def Convertible (frame : JsonObject V) : Prop :=
  (∃ id, frame "id" = some (some (ofUInt64 id))) ∧
  ∃ method params, getField toText frame "method" = some method ∧
    getObject frame "params" = some params ∧ Converts method params

/-- Exactly one reply is sent, with the id of the frame. -/
def Answered (c : Client V) (frame : JsonObject V) : Prop :=
  ∃ reply, (onText c frame).2 = [reply] ∧ frame "id" = some (some (ofUInt64 reply.id))

variable {c : Client V} {id : UInt64} {params frame : JsonObject V} {method : String}

/-! ## The handlers one by one -/

/-- A handler replies with the id of its command, on a condition. -/
structure RepliesIf (condition : Prop) (id : UInt64) (reply : Option Reply) : Prop where
  isSome : reply.isSome = true ↔ condition
  id_eq : ∀ r, reply = some r → r.id = id

theorem interval_isSome {metrics : JsonObject V} {field : String} (value : UInt64) :
    (interval metrics field value).isSome ↔
      ∀ o, getObject metrics field = some o → (getField toUInt64 o "interval").isSome := by
  unfold interval
  cases getObject metrics field with
  | none => simp
  | some o => simp

theorem readMetrics_completed {metrics : JsonObject V} :
    (readMetrics c metrics).2 = true ↔ ∀ field ∈ ["health", "statistics"],
      ∀ o, getObject metrics field = some o → (getField toUInt64 o "interval").isSome := by
  simp only [List.forall_mem_cons, List.not_mem_nil, false_implies, implies_true, and_true]
  rw [← interval_isSome c.healthInterval, ← interval_isSome c.statisticsInterval]
  unfold readMetrics
  cases interval metrics "health" c.healthInterval with
  | none => simp
  | some healthInterval =>
    simp only
    cases interval metrics "statistics" c.statisticsInterval with
    | none => simp
    | some statisticsInterval => simp

theorem doConfigure_replies (h : Carries "configure" params) :
    RepliesIf (Converts "configure" params) id (doConfigure c id params).2 := by
  have hserial := h.fields "serial" (by decide)
  have huuid := h.fields "uuid" (by decide)
  have hconfig := h.fields "config" (by decide)
  obtain ⟨configuration, hconfiguration⟩ := Option.isSome_iff_exists.mp (h.config rfl)
  simp only [doConfigure, hserial, huuid, hconfig, Bool.and_self, if_true, Converts, hconfiguration,
    Option.bind_some]
  cases getField toText params "serial" with
  | none => exact ⟨by simp, by simp⟩
  | some serial =>
    cases getField toUInt64 params "uuid" with
    | none => exact ⟨by simp, by simp⟩
    | some uuid =>
      cases getObject configuration "metrics" with
      | none => exact ⟨by simp, by simp [success]⟩
      | some metrics =>
        simp only [Option.isSome_some, true_and, Option.some.injEq, forall_eq']
        rw [← readMetrics_completed (c := { c with
          uuid := uuid, active := uuid, currentConfig := some configuration })]
        split
        · rename_i hcompleted
          exact ⟨by simp [hcompleted], by simp [success]⟩
        · rename_i hcompleted
          exact ⟨by simp [hcompleted], by simp⟩

theorem doReboot_replies (h : Carries "reboot" params) :
    RepliesIf (Converts "reboot" params) id (doReboot c id params) := by
  have hserial := h.fields "serial" (by decide)
  have hwhen := h.fields "when" (by decide)
  simp only [doReboot, hserial, hwhen, Bool.and_self, if_true, Converts]
  cases getField toText params "serial" with
  | none => exact ⟨by simp, by simp⟩
  | some serial => exact ⟨by simp, by simp [success]⟩

theorem doUpgrade_replies (h : Carries "upgrade" params) :
    RepliesIf (Converts "upgrade" params) id (doUpgrade c id params) := by
  have hserial := h.fields "serial" (by decide)
  have huri := h.fields "uri" (by decide)
  simp only [doUpgrade, hserial, huri, Bool.and_self, if_true, Converts]
  cases getField toText params "serial" with
  | none => exact ⟨by simp, by simp⟩
  | some serial =>
    cases getField toText params "uri" with
    | none => exact ⟨by simp, by simp⟩
    | some uri => exact ⟨by simp, by simp [success]⟩

theorem doFactory_replies (h : Carries "factory" params) :
    RepliesIf (Converts "factory" params) id (doFactory c id params).2 := by
  have hserial := h.fields "serial" (by decide)
  have hwhen := h.fields "when" (by decide)
  simp only [doFactory, hserial, hwhen, Bool.and_self, if_true, Converts]
  cases getField toText params "serial" with
  | none => exact ⟨by simp, by simp⟩
  | some serial => exact ⟨by simp, by simp [success]⟩

theorem doLEDs_replies (h : Carries "leds" params) :
    RepliesIf (Converts "leds" params) id (doLEDs c id params) := by
  have hserial := h.fields "serial" (by decide)
  have hpattern := h.fields "pattern" (by decide)
  simp only [doLEDs, hserial, hpattern, Bool.and_self, if_true, Converts]
  cases getField toText params "serial" with
  | none => exact ⟨by simp, by simp⟩
  | some serial =>
    cases getField toText params "pattern" with
    | none => exact ⟨by simp, by simp⟩
    | some pattern =>
      by_cases hwhen : hasField params "when" = true
      · simp only [hwhen, if_true, forall_const]
        cases getField toUInt64 params "durarion" with
        | none => exact ⟨by simp, by simp⟩
        | some duration => exact ⟨by simp, by simp [success]⟩
      · exact ⟨by simp [hwhen], by simp [hwhen, success]⟩

theorem processCommand_replies (hmethod : getField toText frame "method" = some method)
    (hid : getField toUInt64 frame "id" = some id)
    (hparams : getObject frame "params" = some params) (h : Carries method params) :
    RepliesIf (Converts method params) id (processCommand c frame).2 := by
  simp only [processCommand, hmethod, hid, hparams, withParams]
  split
  · exact doConfigure_replies h
  · exact doReboot_replies h
  · exact doUpgrade_replies h
  · exact doFactory_replies h
  · exact doLEDs_replies h
  · rename_i hconfigure hreboot hupgrade hfactory hleds
    refine ⟨iff_of_true rfl ?_, fun r hr => ?_⟩
    · unfold Converts
      split
      · exact (hconfigure rfl).elim
      · exact (hreboot rfl).elim
      · exact (hfactory rfl).elim
      · exact (hupgrade rfl).elim
      · exact (hleds rfl).elim
      · trivial
    · cases hr
      rfl

/-! ## The frame -/

theorem onText_of_complete (h : Complete frame) :
    (onText c frame).2 = (processCommand c frame).2.toList := by
  obtain ⟨params, hparams, -⟩ := h.params
  obtain ⟨v, hv, -⟩ := getField_eq_some hparams
  have hhas : hasField frame "params" = true := by rw [hasField, hv]; rfl
  simp only [onText, h.header "jsonrpc" (by decide), h.header "id" (by decide),
    h.header "method" (by decide), hhas, Bool.and_self, if_true]

/-- A complete frame has its one reply exactly when all that its handler reads converts. -/
theorem answered_iff (c : Client V) (frame : JsonObject V) (h : Complete frame) :
    Answered c frame ↔ Convertible frame := by
  obtain ⟨params, hparams, hcarries⟩ := h.params
  unfold Answered Convertible
  rw [onText_of_complete h]
  simp only [Option.toList_eq_singleton_iff]
  constructor
  · rintro ⟨reply, hreply, hframe⟩
    have hid : getField toUInt64 frame "id" = some reply.id := by
      rw [getField, hframe]
      exact toUInt64_ofUInt64 reply.id
    cases hmethod : getField toText frame "method" with
    | none => simp [processCommand, hmethod] at hreply
    | some method =>
      have hreplies := processCommand_replies (c := c) hmethod hid hparams (hcarries method hmethod)
      exact ⟨⟨reply.id, hframe⟩, method, params, rfl, hparams,
        hreplies.isSome.mp (Option.isSome_of_eq_some hreply)⟩
  · rintro ⟨⟨id, hframe⟩, method, params', hmethod, hparams', hconverts⟩
    cases hparams.symm.trans hparams'
    have hid : getField toUInt64 frame "id" = some id := by
      rw [getField, hframe]
      exact toUInt64_ofUInt64 id
    have hreplies := processCommand_replies (c := c) hmethod hid hparams (hcarries method hmethod)
    obtain ⟨reply, hreply⟩ := Option.isSome_iff_exists.mp (hreplies.isSome.mpr hconverts)
    exact ⟨reply, hreply, by rw [hreplies.id_eq reply hreply, hframe]⟩

/-! ## One frame -/

inductive Tree where
  | text (s : String)
  | number (n : UInt64)
  | object (fields : List (String × Tree))

instance : JsonTree Tree where
  toText
    | .text s => some s
    | .number n => some (Word.toDecimal n)
    | .object _ => none
  toUInt64
    | .text s => if Word.isNumber s then Word.ofDecimal? s else none
    | .number n => some n
    | .object _ => none
  toObject
    | .object fields => some (.ofFields fields)
    | _ => none
  ofText := .text
  ofUInt64 := .number
  toText_ofText _ := rfl
  toUInt64_ofUInt64 _ := rfl

def frameOf (method : String) (params : List (String × Tree)) : JsonObject Tree :=
  .ofFields [("jsonrpc", .text "2.0"), ("id", .number 7), ("method", .text method),
    ("params", .object params)]

def blink : List (String × Tree) := [("serial", .text "s"), ("pattern", .text "blink")]

theorem complete_leds (more : List (String × Tree)) :
    Complete (frameOf "leds" (blink ++ more)) where
  header := by simp [frameOf, hasField, JsonObject.ofFields]
  params := by
    refine ⟨_, rfl, fun method hmethod => ?_⟩
    cases hmethod
    have hleds : "leds" ≠ "configure" := by decide
    exact ⟨by simp [requiredFields, hasField, JsonObject.ofFields, blink], fun h => absurd h hleds⟩

theorem answered_blink : Answered {} (frameOf "leds" blink) := by
  refine (answered_iff {} _ (complete_leds [])).mpr ⟨⟨7, rfl⟩, "leds", _, rfl, rfl, ?_⟩
  exact ⟨rfl, rfl, by decide⟩

/-- A frame for the lights that says when is never answered. -/
theorem leds_when_unanswered :
    ¬ ∀ (c : Client Tree) (frame : JsonObject Tree), Complete frame → Answered c frame := by
  intro h
  obtain ⟨reply, hreply, -⟩ := h {} _ (complete_leds [("when", .number 0), ("duration", .number 5)])
  cases hreply

end Commands

end Owls
