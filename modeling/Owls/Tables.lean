import Owls.Base.Machine
import Owls.Commands
import Owls.Configuration

/-!
# The tables of a client

`AllAssociations_`, `AllCounters_` and `AllRadios_` show what `CurrentConfig_` says.
-/

open Machine Draw

namespace Owls

/-- The bands of the radios, as `UpdateConfiguration` takes them. -/
def Configuration.bands (config : Configuration) : List RadioBands :=
  config.radios.map fun radio => (OWLSclient.findBand radio.band).getD .band2g

namespace Tables

open JsonValue JsonTree OWLSclient
open Commands (getObject)

variable {V : Type} [JsonTree V]

/-! ## Reports -/

/-- `AllRadios_[band]`: a band that is not there is inserted. -/
def touchRadio (c : Device) (band : RadioBands) : Device :=
  if band ∈ c.allRadios then c else { c with allRadios := c.allRadios.insert band {} }

/-- `AllCounters_[role]`. -/
def touchCounters (c : Device) (role : ApInterfaceTypes) : Device :=
  { c with allCounters := c.allCounters.insert role }

def reportAssociations (role : ApInterfaceTypes) (c : Device) (l : InterfaceLocation) : Device :=
  if l.role = role then touchRadio (touchCounters c l.role) l.band else c

def reportInterface (c : Device) (role : ApInterfaceTypes) : Device :=
  if role ∈ c.allCounters then
    touchCounters (c.allAssociations.keys.foldl (reportAssociations role) c) role
  else c

/-- What `CreateStatePtr` does to the tables that it reports. -/
def createStatePtr (c : Device) : Device :=
  [.upstream, .downstream].foldl reportInterface c

/-! ## The machine -/

/-- A client, and what `CurrentConfig_` says of its interfaces and radios: `none` for a null
pointer. -/
structure Configured where
  currentConfig : Option Configuration
  device : Device

/-- A configure command gets as far as `CurrentConfig_`. -/
def assigns (params : JsonObject V) : Bool :=
  hasField params "serial" && hasField params "config" && hasField params "uuid" &&
    (getField toText params "serial").isSome && (getField toUInt64 params "uuid").isSome

inductive Event (V : Type) where
  | construct (serialNumber : String) (r : Entropy)
  | configure (params : JsonObject V)
  /-- `sent`: the answer went out. -/
  | factory (params : JsonObject V) (sent : Bool) (r : Entropy)
  | state

-- `read` is what a document says of interfaces and radios.
variable (read : JsonObject V → Configuration) (d : SimulationDetails)

def doConfigure (c : Configured) (params : JsonObject V) : Configured :=
  if assigns params then { c with currentConfig := (getObject params "config").map read } else c

/-- The client with the built-in configuration, and the tables that `UpdateConfiguration` gives.
`none`: it throws or traps, and there is no client any more. The factory command runs on a thread of
its own, so that the process ends with it. -/
def rebuild (out : Except Failure (Device × Entropy)) : Option Configured :=
  out.toOption.map fun p => { currentConfig := defaultConfiguration, device := p.1 }

def doFactory (c : Configured) (params : JsonObject V) (sent : Bool) (r : Entropy) :
    Option Configured :=
  if hasField params "serial" && hasField params "when" &&
      (getField toText params "serial").isSome && sent then
    rebuild (updateConfiguration d defaultConfiguration c.device r)
  else some c

/-- The state is `none` until the client is built. -/
def step : Option Configured → Event V → Option (Option Configured)
  | none, .construct serialNumber r => (rebuild (new d serialNumber r)).map some
  | some c, .configure params => some (some (doConfigure read c params))
  | some c, .factory params sent r => (doFactory d c params sent r).map some
  | some c, .state => some (some { c with device := createStatePtr c.device })
  | _, _ => none

/-! ## Agreement -/

structure Agrees (config : Option Configuration) (c : Device) : Prop where
  associations : ∀ l, l ∈ c.allAssociations ↔ l ∈ config.elim [] Configuration.locations
  counters : ∀ role, role ∈ c.allCounters ↔ role ∈ config.elim [] Configuration.roles
  radios : ∀ band, band ∈ c.allRadios ↔ band ∈ config.elim [] Configuration.bands

/-- The tables show what the configuration says. -/
def TablesAgree (s : Option Configured) : Prop :=
  ∀ c, s = some c → Agrees c.currentConfig c.device

/-- The same locations, roles and bands as in the built-in configuration. -/
structure Alike (config : Option Configuration) : Prop where
  locations : ∀ l, l ∈ config.elim [] Configuration.locations ↔ l ∈ defaultConfiguration.locations
  roles : ∀ role, role ∈ config.elim [] Configuration.roles ↔ role ∈ defaultConfiguration.roles
  bands : ∀ band, band ∈ config.elim [] Configuration.bands ↔ band ∈ defaultConfiguration.bands

/-- A configuration that is taken over is like the built-in one. -/
def Keeps (_ : Option Configured) : Event V → Prop
  | .configure params => assigns params = true → Alike ((getObject params "config").map read)
  | _ => True

variable {read d} {c : Device} {config : Option Configuration}

theorem readMetrics_currentConfig (client : Commands.Client V) (metrics : JsonObject V) :
    (Commands.readMetrics client metrics).1.currentConfig = client.currentConfig := by
  unfold Commands.readMetrics
  split
  · rfl
  · dsimp only
    split <;> rfl

theorem doConfigure_currentConfig {s : Configured} {client : Commands.Client V}
    (h : client.currentConfig.map read = s.currentConfig) (id : UInt64) (params : JsonObject V) :
    (Commands.doConfigure client id params).1.currentConfig.map read =
      (doConfigure read s params).currentConfig := by
  unfold Commands.doConfigure doConfigure assigns
  cases hasField params "serial" <;> cases hasField params "config" <;>
    cases hasField params "uuid" <;> try exact h
  cases getField toText params "serial" with
  | none => exact h
  | some serial =>
    cases getField toUInt64 params "uuid" with
    | none => exact h
    | some newUUID =>
      cases getObject params "config" with
      | none => rfl
      | some configuration =>
        simp only [Bool.and_self, if_true, Option.isSome_some, Option.map_some]
        split
        · rfl
        · rw [readMetrics_currentConfig]
          rfl

/-! ## Rebuilding the tables -/

/-- The tables between the loops of `UpdateConfiguration`: what is done of each. -/
structure Built (locations : List InterfaceLocation) (roles : List ApInterfaceTypes)
    (bands : List RadioBands) (c : Device) : Prop where
  associations : ∀ l, l ∈ c.allAssociations ↔ l ∈ locations
  counters : ∀ role ∈ roles, role ∈ c.allCounters
  radios : ∀ band, band ∈ c.allRadios ↔ band ∈ bands

theorem fills_built : Fills d (fun _ => True) fun locations roles => Built locations roles [] where
  serial _ := yields_true
  index hc := ⟨hc.associations, hc.counters, hc.radios⟩
  create {locations roles c} hc l bssid := by
    unfold createAssociations
    refine yields_true.bind fun n _ => yields_true.map fun as _ => ?_
    refine ⟨fun k => ?_, hc.counters, hc.radios⟩
    simp only [setSizes, AList.mem_insert, hc.associations, List.mem_append, List.mem_singleton]
    exact or_comm
  role {locations roles c} hc role := by
    refine ⟨hc.associations, fun role' hmem => ?_, hc.radios⟩
    rw [List.mem_insert_iff]
    rcases List.mem_append.mp hmem with hmem | hmem
    · exact .inr (hc.counters role' hmem)
    · exact .inl (List.mem_singleton.mp hmem)

theorem Built.radio {locations : List InterfaceLocation} {roles : List ApInterfaceTypes}
    {bands : List RadioBands} (hc : Built locations roles bands c) (band : RadioBands)
    (radio : MockRadio) :
    Built locations roles (bands ++ [band])
      { c with allRadios := c.allRadios.insert band radio } where
  associations := hc.associations
  counters := hc.counters
  radios b := by
    rw [AList.mem_insert, hc.radios, List.mem_append, List.mem_singleton, or_comm]

theorem yields_updateConfiguration (c : Device) :
    Yields (updateConfiguration d defaultConfiguration c) (Agrees (some defaultConfiguration))
      fun _ => True := by
  unfold updateConfiguration
  refine (fills_built.onInterfaces ⟨by simp, by simp, by simp⟩ _).bind fun c hc => ?_
  refine Yields.bind
    (P := Built defaultConfiguration.locations defaultConfiguration.roles []) ?_ fun c hc => ?_
  · refine yields_true.bind fun n _ => yields_true.map fun clients _ => ?_
    exact ⟨hc.associations, hc.counters, hc.radios⟩
  · refine (returns_radios (fun _ radio hc => Built.radio hc _ radio)
      (fun _ radio hc => Built.radio hc _ radio) hc).yields.mono fun c hc => ?_
    refine ⟨hc.associations, fun role => iff_of_true ?_ ?_, hc.radios⟩
    · exact hc.counters role (by cases role <;> decide)
    · cases role <;> decide

/-! ## Reports add nothing -/

theorem createStatePtr_eq (hc : Agrees (some defaultConfiguration) c) : createStatePtr c = c := by
  have hcounters (role : ApInterfaceTypes) : touchCounters c role = c := by
    have hmem : role ∈ c.allCounters := (hc.counters role).mpr (by cases role <;> decide)
    rw [touchCounters, List.insert_of_mem hmem]
  have hradios {l : InterfaceLocation} (hl : l ∈ c.allAssociations) : touchRadio c l.band = c := by
    have hband : ∀ l ∈ defaultConfiguration.locations, l.band ∈ defaultConfiguration.bands := by
      decide
    exact if_pos ((hc.radios l.band).mpr (hband l ((hc.associations l).mp hl)))
  have hassociation (role : ApInterfaceTypes) {l : InterfaceLocation}
      (hl : l ∈ c.allAssociations.keys) : reportAssociations role c l = c := by
    unfold reportAssociations
    rw [hcounters, hradios (AList.mem_keys.mpr hl), ite_self]
  have hinterface (role : ApInterfaceTypes) : reportInterface c role = c := by
    have hfold : c.allAssociations.keys.foldl (reportAssociations role) c = c := by
      refine List.foldlRecOn (motive := fun u => u = c) _ _ rfl fun u hu l hl => ?_
      rw [hu]
      exact hassociation role hl
    rw [reportInterface, hfold, hcounters, ite_self]
  simp only [createStatePtr, List.foldl_cons, List.foldl_nil, hinterface]

/-! ## Runs -/

variable {s u : Option Configured} {e : Event V}

/-- The tables never leave the built-in configuration. -/
def BuiltIn (s : Option Configured) : Prop :=
  ∀ c, s = some c → Agrees (some defaultConfiguration) c.device

theorem rebuild_eq_some {out : Except Failure (Device × Entropy)} {x : Configured} :
    rebuild out = some x ↔ ∃ device t, out = .ok (device, t) ∧
      x = { currentConfig := defaultConfiguration, device } :=
  map_toOption_eq_some

theorem agrees_of_rebuild {r : Entropy} {x : Configured}
    (h : rebuild (updateConfiguration d defaultConfiguration c r) = some x) :
    x.currentConfig = defaultConfiguration ∧ Agrees (some defaultConfiguration) x.device := by
  obtain ⟨device, t, hok, rfl⟩ := rebuild_eq_some.mp h
  exact ⟨rfl, (yields_updateConfiguration c).of_ok hok⟩

inductive Stepped (read : JsonObject V → Configuration) (s : Option Configured) :
    Event V → Configured → Prop where
  /-- The client is built, or has gone back to the built-in configuration. -/
  | rebuilt {c : Configured} {e : Event V} (hconfig : c.currentConfig = defaultConfiguration)
    (hagrees : Agrees (some defaultConfiguration) c.device)
    (he : ∀ params, e ≠ .configure params) : Stepped read s e c
  | configured {c : Configured} (params : JsonObject V) (hs : s = some c) :
    Stepped read s (.configure params) (doConfigure read c params)
  | reported {c : Configured} (hs : s = some c) :
    Stepped read s .state { c with device := createStatePtr c.device }
  | refused {c : Configured} {e : Event V} (hs : s = some c)
    (he : ∀ params, e ≠ .configure params) : Stepped read s e c

theorem stepped_of_step (hu : step read d s e = some u) : ∃ c, u = some c ∧ Stepped read s e c := by
  cases s with
  | none =>
    cases e with
    | construct serialNumber r =>
      obtain ⟨c, hc, rfl⟩ := Option.map_eq_some_iff.mp hu
      obtain ⟨hconfig, hagrees⟩ := agrees_of_rebuild hc
      exact ⟨c, rfl, .rebuilt hconfig hagrees (by simp)⟩
    | configure | factory | state => cases hu
  | some c =>
    cases e with
    | construct serialNumber r => cases hu
    | configure params =>
      cases hu
      exact ⟨_, rfl, .configured params rfl⟩
    | factory params sent r =>
      obtain ⟨c', hc', rfl⟩ := Option.map_eq_some_iff.mp hu
      refine ⟨c', rfl, ?_⟩
      unfold doFactory at hc'
      split at hc'
      · obtain ⟨hconfig, hagrees⟩ := agrees_of_rebuild hc'
        exact .rebuilt hconfig hagrees (by simp)
      · cases hc'
        exact .refused rfl (by simp)
    | state =>
      cases hu
      exact ⟨_, rfl, .reported rfl⟩

theorem doConfigure_device (c : Configured) (params : JsonObject V) :
    (doConfigure read c params).device = c.device := by
  unfold doConfigure
  split <;> rfl

theorem builtIn_step (s : Option Configured) (e : Event V) (u : Option Configured) (h : BuiltIn s)
    (hu : step read d s e = some u) : BuiltIn u := by
  obtain ⟨c, rfl, hstepped⟩ := stepped_of_step hu
  rintro _ ⟨⟩
  cases hstepped with
  | rebuilt _ hagrees => exact hagrees
  | configured params hs =>
    rw [doConfigure_device]
    exact h _ hs
  | reported hs =>
    rw [createStatePtr_eq (h _ hs)]
    exact h _ hs
  | refused hs => exact h _ hs

theorem agrees_iff_alike (hc : Agrees (some defaultConfiguration) c) :
    Agrees config c ↔ Alike config := by
  constructor
  · intro h
    exact ⟨fun l => (h.associations l).symm.trans (hc.associations l),
      fun role => (h.counters role).symm.trans (hc.counters role),
      fun band => (h.radios band).symm.trans (hc.radios band)⟩
  · intro h
    exact ⟨fun l => (hc.associations l).trans (h.locations l).symm,
      fun role => (hc.counters role).trans (h.roles role).symm,
      fun band => (hc.radios band).trans (h.bands band).symm⟩

theorem alike_default : Alike (some defaultConfiguration) :=
  ⟨fun _ => Iff.rfl, fun _ => Iff.rfl, fun _ => Iff.rfl⟩

theorem tablesAgree_iff (h : BuiltIn s) :
    TablesAgree s ↔ ∀ c, s = some c → Alike c.currentConfig :=
  forall_congr' fun c => imp_congr_right fun hc => agrees_iff_alike (h c hc)

/-- The tables agree with the configuration throughout a run exactly when each configuration that
is taken over is like the built-in one. -/
theorem tables_agree_iff (read : JsonObject V → Configuration) (d : SimulationDetails)
    (es : List (Event V)) :
    Always (step read d) TablesAgree none es ↔ Steps (step read d) (Keeps read) none es := by
  have hnone {c : Configured} (hc : none = some c) : False := by cases hc
  refine always_iff_steps (J := BuiltIn) (I := TablesAgree) (fun _ hc => (hnone hc).elim)
    (fun _ hc => (hnone hc).elim) builtIn_step (fun s h => h) ?_ ?_ es
  · intro s e u hs hagree hkeeps hu
    rw [tablesAgree_iff hs] at hagree
    rw [tablesAgree_iff (builtIn_step s e u hs hu)]
    obtain ⟨c, rfl, hstepped⟩ := stepped_of_step hu
    rintro _ ⟨⟩
    cases hstepped with
    | rebuilt hconfig =>
      rw [hconfig]
      exact alike_default
    | @configured c params hc =>
      unfold doConfigure
      split
      · rename_i hassigns
        exact hkeeps hassigns
      · exact hagree c hc
    | @reported c hc => exact hagree c hc
    | refused hc => exact hagree _ hc
  · intro s e u hs _ hu hagree
    rw [tablesAgree_iff (builtIn_step s e u hs hu)] at hagree
    obtain ⟨c, rfl, hstepped⟩ := stepped_of_step hu
    have halike := hagree c rfl
    cases hstepped with
    | configured params hc =>
      intro hassigns
      rw [doConfigure, if_pos hassigns] at halike
      exact halike
    | reported => trivial
    | rebuilt _ _ he | refused _ he =>
      cases e with
      | configure params => exact absurd rfl (he params)
      | construct | factory | state => trivial

section Another

open Commands (Tree)

/-- A `Tree` has no arrays, so that no document lists interfaces or radios. -/
def readTree (_ : JsonObject Tree) : Configuration := { interfaces := [], radios := [] }

def configureEmpty : JsonObject Tree :=
  .ofFields [("serial", .text "53494d000000"), ("uuid", .number 2), ("config", .object [])]

/-- A configure command replaces the configuration, and leaves the tables. -/
theorem tables_left_behind : ¬ ∀ es : List (Event Tree),
    Always (step readTree sampleDetails) TablesAgree none es := by
  intro h
  have hbuilt : Returns (new sampleDetails "53494d000000")
      (Sized sampleDetails defaultConfiguration.locations) :=
    returns_new ⟨_, rfl⟩ ⟨by decide, by decide⟩
  obtain ⟨device, t, hnew, -⟩ := hbuilt zeros
  have hrebuild := rebuild_eq_some.mpr ⟨device, t, hnew, rfl⟩
  have hrun : run (step readTree sampleDetails) none
      [.construct "53494d000000" zeros, .configure configureEmpty] =
        some (some { currentConfig := some (readTree (.ofFields [])), device }) := by
    rw [run_cons, step, hrebuild]
    rfl
  have hagrees := (h _).here hrun _ rfl
  have halike := (agrees_iff_alike (agrees_of_rebuild hrebuild).2).mp hagrees
  have hrole := (halike.roles .upstream).mpr (by decide)
  cases hrole

end Another

end Tables

end Owls
