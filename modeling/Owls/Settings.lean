import Owls.Tables

/-!
# A configure command that fails

`DoConfigure` converts the serial number and the uuid before it assigns anything. The rest of the
document is looked at between the assignments.
-/

namespace Owls.Commands

open JsonValue JsonTree
open Tables (assigns)

variable {V : Type} [JsonTree V]

/-- The settings that a configure command may assign are the same in both. -/
structure SameSettings (c u : Client V) : Prop where
  uuid : u.uuid = c.uuid
  active : u.active = c.active
  currentConfig : u.currentConfig = c.currentConfig
  healthInterval : u.healthInterval = c.healthInterval
  statisticsInterval : u.statisticsInterval = c.statisticsInterval

/-- No success reply, no change. -/
def AllOrNothing (c : Client V) (id : UInt64) (params : JsonObject V) : Prop :=
  (doConfigure c id params).2 = none → SameSettings c (doConfigure c id params).1

/-- The metrics of the configuration, where it has them. -/
def metricsOf (params : JsonObject V) : Option (JsonObject V) :=
  (getObject params "config").bind (getObject · "metrics")

/-- The configuration is an object, and the intervals of its metrics convert. -/
structure Completes (params : JsonObject V) : Prop where
  config : (getObject params "config").isSome
  intervals : ∀ metrics, metricsOf params = some metrics → ∀ field ∈ ["health", "statistics"],
    ∀ o, getObject metrics field = some o → (getField toUInt64 o "interval").isSome

/-- The document says what the client has already. The interval of the health checks comes before
the one of the statistics. -/
structure Repeats (c : Client V) (params : JsonObject V) : Prop where
  uuid : getField toUInt64 params "uuid" = some c.uuid
  active : c.active = c.uuid
  config : getObject params "config" = c.currentConfig
  health : ∀ metrics n, metricsOf params = some metrics →
    interval metrics "health" c.healthInterval = some n → n = c.healthInterval

omit [JsonTree V] in
theorem sameSettings_refl (c : Client V) : SameSettings c c := ⟨rfl, rfl, rfl, rfl, rfl⟩

variable {c : Client V} {id : UInt64} {params metrics : JsonObject V}

/-! ## What the command does -/

/-- The client after the first assignments. -/
def taken (c : Client V) (params : JsonObject V) (newUUID : UInt64) : Client V :=
  { c with uuid := newUUID, active := newUUID, currentConfig := getObject params "config" }

/-- The ways of the command: nothing is assigned before `serial` and `uuid` convert, and then only
the configuration itself can end it early. -/
inductive Configured (c : Client V) (id : UInt64) (params : JsonObject V) :
    Client V × Option Reply → Prop where
  | refused (hassigns : assigns params = false) : Configured c id params (c, none)
  | noObject {newUUID : UInt64} (hassigns : assigns params = true)
    (huuid : getField toUInt64 params "uuid" = some newUUID)
    (hconfig : getObject params "config" = none) :
    Configured c id params (taken c params newUUID, none)
  | noMetrics {newUUID : UInt64} {reply : Reply} (hassigns : assigns params = true)
    (hconfig : (getObject params "config").isSome) (hmetrics : metricsOf params = none) :
    Configured c id params (taken c params newUUID, some reply)
  | metrics {newUUID : UInt64} {metrics : JsonObject V} {reply : Reply}
    (hassigns : assigns params = true)
    (huuid : getField toUInt64 params "uuid" = some newUUID)
    (hconfig : (getObject params "config").isSome) (hmetrics : metricsOf params = some metrics) :
    Configured c id params ((readMetrics (taken c params newUUID) metrics).1,
      if (readMetrics (taken c params newUUID) metrics).2 then some reply else none)

theorem configured (c : Client V) (id : UInt64) (params : JsonObject V) :
    Configured c id params (doConfigure c id params) := by
  by_cases hassigns : assigns params = true
  · have hparts := hassigns
    simp only [assigns, Bool.and_eq_true, Option.isSome_iff_exists] at hparts
    obtain ⟨⟨⟨⟨hhasSerial, hhasConfig⟩, hhasUUID⟩, serial, hserial⟩, newUUID, huuid⟩ := hparts
    rcases hconfig : getObject params "config" with _ | configuration
    · have hnone : Configured c id params (taken c params newUUID, none) :=
        .noObject hassigns huuid hconfig
      simpa only [doConfigure, hhasSerial, hhasConfig, hhasUUID, hserial, huuid, hconfig, taken,
        Bool.and_self, if_true] using hnone
    · have hsome : (getObject params "config").isSome := by rw [hconfig]; rfl
      have hbind : metricsOf params = getObject configuration "metrics" := by
        rw [metricsOf, hconfig, Option.bind_some]
      simp only [doConfigure, hhasSerial, hhasConfig, hhasUUID, hserial, huuid, hconfig,
        Bool.and_self, if_true]
      rw [← hconfig]
      cases hmetrics : getObject configuration "metrics" with
      | none => exact .noMetrics hassigns hsome (hbind.trans hmetrics)
      | some metrics => exact .metrics hassigns huuid hsome (hbind.trans hmetrics)
  · have hrefused : doConfigure c id params = (c, none) := by
      unfold assigns at hassigns
      unfold doConfigure
      split
      · rename_i hhas
        rw [hhas, Bool.true_and] at hassigns
        cases hserial : getField toText params "serial" with
        | none => rfl
        | some serial =>
          cases huuid : getField toUInt64 params "uuid" with
          | none => rfl
          | some newUUID => simp [hserial, huuid] at hassigns
      · rfl
    rw [hrefused]
    exact .refused (Bool.not_eq_true _ ▸ hassigns)

theorem sameSettings_readMetrics {u : Client V} (hu : c.healthInterval = u.healthInterval)
    (hfailed : (readMetrics c metrics).2 = false) :
    SameSettings u (readMetrics c metrics).1 ↔ SameSettings u c ∧
      ∀ n, interval metrics "health" u.healthInterval = some n → n = u.healthInterval := by
  unfold readMetrics at hfailed ⊢
  rw [hu] at hfailed ⊢
  cases hhealth : interval metrics "health" u.healthInterval with
  | none => simp
  | some n =>
    simp only [hhealth] at hfailed ⊢
    cases hstatistics : interval metrics "statistics" c.statisticsInterval with
    | some m => simp [hstatistics] at hfailed
    | none =>
      simp only [Option.some.injEq, forall_eq']
      constructor
      · intro h
        exact ⟨⟨h.uuid, h.active, h.currentConfig, hu, h.statisticsInterval⟩, h.healthInterval⟩
      · rintro ⟨h, hn⟩
        exact ⟨h.uuid, h.active, h.currentConfig, hn, h.statisticsInterval⟩

/-! ## All or nothing -/

theorem sameSettings_taken {newUUID : UInt64}
    (huuid : getField toUInt64 params "uuid" = some newUUID) :
    SameSettings c (taken c params newUUID) ↔
      getField toUInt64 params "uuid" = some c.uuid ∧ c.active = c.uuid ∧
        getObject params "config" = c.currentConfig := by
  rw [huuid, Option.some.injEq]
  constructor
  · intro h
    exact ⟨h.uuid, h.active.symm.trans h.uuid, h.currentConfig⟩
  · rintro ⟨rfl, hactive, hconfig⟩
    exact ⟨rfl, hactive.symm, hconfig, rfl, rfl⟩

theorem repeats_iff (hmetrics : metricsOf params = some metrics) :
    Repeats c params ↔ (getField toUInt64 params "uuid" = some c.uuid ∧ c.active = c.uuid ∧
      getObject params "config" = c.currentConfig) ∧
        ∀ n, interval metrics "health" c.healthInterval = some n → n = c.healthInterval := by
  constructor
  · intro h
    exact ⟨⟨h.uuid, h.active, h.config⟩, fun n => h.health metrics n hmetrics⟩
  · rintro ⟨⟨huuid, hactive, hconfig⟩, hhealth⟩
    refine ⟨huuid, hactive, hconfig, fun m n hm => ?_⟩
    cases hmetrics.symm.trans hm
    exact hhealth n

theorem repeats_iff_of_none (hmetrics : metricsOf params = none) :
    Repeats c params ↔ getField toUInt64 params "uuid" = some c.uuid ∧ c.active = c.uuid ∧
      getObject params "config" = c.currentConfig := by
  constructor
  · intro h
    exact ⟨h.uuid, h.active, h.config⟩
  · rintro ⟨huuid, hactive, hconfig⟩
    refine ⟨huuid, hactive, hconfig, fun m n hm => ?_⟩
    cases hmetrics.symm.trans hm

/-- A command that sends no success reply leaves the settings alone exactly when it is refused
before it assigns anything, or completes after all, or says nothing new. -/
theorem allOrNothing_iff (c : Client V) (id : UInt64) (params : JsonObject V) :
    AllOrNothing c id params ↔ (assigns params = true → Completes params ∨ Repeats c params) := by
  have hconfigured := configured c id params
  unfold AllOrNothing
  generalize doConfigure c id params = out at hconfigured
  cases hconfigured with
  | refused hassigns => simp [hassigns, sameSettings_refl]
  | noObject hassigns huuid hconfig =>
    have hnot : ¬ Completes params := fun h => by simpa [hconfig] using h.config
    have hmetrics : metricsOf params = none := by rw [metricsOf, hconfig, Option.bind_none]
    simp only [hassigns, hnot, false_or, forall_const]
    rw [sameSettings_taken huuid, repeats_iff_of_none hmetrics]
  | noMetrics hassigns hconfig hmetrics =>
    have hcompletes : Completes params := ⟨hconfig, fun m hm => by cases hmetrics.symm.trans hm⟩
    simp [hcompletes]
  | @metrics newUUID metrics reply hassigns huuid hconfig hmetrics =>
    have hcompletes : Completes params ↔
        (readMetrics (taken c params newUUID) metrics).2 = true := by
      rw [readMetrics_completed]
      constructor
      · exact fun h => h.intervals metrics hmetrics
      · refine fun h => ⟨hconfig, fun m hm => ?_⟩
        cases hmetrics.symm.trans hm
        exact h
    by_cases hdone : (readMetrics (taken c params newUUID) metrics).2 = true
    · simp [hcompletes, hdone]
    · rw [Bool.not_eq_true] at hdone
      simp only [hdone, hcompletes, hassigns, Bool.false_eq_true, if_false, false_or, forall_const]
      have hhealth : (taken c params newUUID).healthInterval = c.healthInterval := rfl
      rw [sameSettings_readMetrics hhealth hdone, sameSettings_taken huuid, repeats_iff hmetrics]

section Half

/-- The configuration is no object. -/
def configureText : JsonObject Tree :=
  .ofFields [("serial", .text "s"), ("uuid", .number 2), ("config", .text "none")]

/-- The uuid is taken over, and the configuration lost, before the exception. -/
theorem uuid_taken_over :
    ¬ ∀ (c : Client Tree) (id : UInt64) (params : JsonObject Tree), AllOrNothing c id params := by
  intro h
  have hsame := h {} 7 configureText rfl
  have huuid : (2 : UInt64) = 0 := hsame.uuid
  exact absurd huuid (by decide)

end Half

end Owls.Commands
