import Owls.Coordination
import Owls.Totals

/-!
# The time to full devices

The master notes when the live devices of all nodes together first are as many as expected. A
count that another call passes by is not seen: only `Connect` and a report look at the sum.
-/

open Machine

namespace Owls.SimStats

open Coordination (fromDevice)

/-! ## The calls that look -/

def Call.clock? : Call → Option UInt64
  | .connect now _ | .updateRemoteStatus now _ _ => some now
  | _ => none

/-- The clock of a call that looks at the sum. A report for a slot that there is not is dropped
before. -/
def Call.looks? (v : Slots) : Call → Option UInt64
  | .connect now _ => some now
  | .updateRemoteStatus now _ index => if index.toNat < v.toList.length then some now else none
  | _ => none

def Slots.Full (v : Slots) : Prop := v.first.expectedDevices = v.total (·.liveDevices)

instance (v : Slots) : Decidable v.Full := inferInstanceAs (Decidable (_ = _))

/-- The call looks at the sum, and leaves as many live devices as expected. -/
def Meets (id : String) (ss : Statuses) (c : Call) (ss' : Statuses) : Prop :=
  ∃ v w, ss[id]? = some v ∧ ss'[id]? = some w ∧ (c.looks? v).isSome ∧ w.Full

variable {ss : Statuses} {id : String} {v w : Slots} {c : Call} {now : UInt64}

theorem updated_full : (v.updated true now).Full ↔ v.Full := by
  unfold Slots.updated
  split <;> exact Iff.rfl

theorem updated_time (hzero : v.first.timeToFullDevices = 0) :
    (v.Full → (v.updated true now).first.timeToFullDevices = now - v.first.startTime) ∧
    (¬ v.Full → (v.updated true now).first.timeToFullDevices = 0) := by
  have hreach : v.Reaches ↔ v.Full := by
    rw [Slots.Reaches, Slots.Full, live_eq_total, and_iff_right hzero]
  unfold Slots.updated
  constructor
  · intro hfull
    rw [if_pos ⟨rfl, hreach.mpr hfull⟩]
    rfl
  · intro hnot
    rw [if_neg fun h => hnot (hreach.mp h.2)]
    exact hzero

theorem updated_of_timed (htime : v.first.timeToFullDevices ≠ 0) : v.updated true now = v :=
  if_neg fun h => htime h.2.1

theorem updated_startTime : (v.updated true now).first.startTime = v.first.startTime := by
  unfold Slots.updated
  split <;> rfl

theorem onSlots_looks (hc : fromDevice c = true) (hlooks : c.looks? v = some now) :
    ∃ v' : Slots, c.onSlots true (some v) = some (v'.updated true now) ∧
      v'.first.timeToFullDevices = v.first.timeToFullDevices ∧
      v'.first.startTime = v.first.startTime := by
  cases c with
  | connect now' id =>
    cases hlooks
    exact ⟨_, rfl, rfl, rfl⟩
  | updateRemoteStatus now' simStatus index =>
    simp only [Call.looks?] at hlooks
    split at hlooks <;> cases hlooks
    rename_i hin
    obtain ⟨k, hk⟩ := exists_toNat_eq_succ (bne_iff_ne.mp hc)
    refine ⟨v.set index.toNat simStatus, congrArg some (if_pos hin), ?_, ?_⟩ <;> rw [hk] <;> rfl
  | startSim | removeSim | disconnect | addOutMsg | addInMsg | endSim | setState => cases hlooks

theorem exists_onSlots (hc : fromDevice c = true) (v : Slots) :
    ∃ w, c.onSlots true (some v) = some w := by
  cases c with
  | connect | disconnect | addOutMsg | addInMsg | updateRemoteStatus => exact ⟨_, rfl⟩
  | startSim | removeSim | endSim | setState => cases hc

theorem onSlots_blind (hc : fromDevice c = true) (hlooks : c.looks? v = none)
    (hw : c.onSlots true (some v) = some w) :
    w.first.timeToFullDevices = v.first.timeToFullDevices ∧
      w.first.startTime = v.first.startTime := by
  cases c with
  | connect => cases hlooks
  | updateRemoteStatus now simStatus index =>
    simp only [Call.looks?] at hlooks
    split at hlooks
    · cases hlooks
    · rename_i hout
      cases hw
      rw [report_of_length_le (Nat.not_lt.mp hout)]
      exact ⟨rfl, rfl⟩
  | disconnect =>
    cases hw
    simp only [Slots.modifyFirst]
    split <;> exact ⟨rfl, rfl⟩
  | addOutMsg | addInMsg =>
    cases hw
    exact ⟨rfl, rfl⟩
  | startSim | removeSim | endSim | setState => cases hc

theorem time_of_call (hc : fromDevice c = true) (hw : c.onSlots true (some v) = some w) :
    w.first.startTime = v.first.startTime ∧
    (v.first.timeToFullDevices ≠ 0 → w.first.timeToFullDevices = v.first.timeToFullDevices) ∧
    (v.first.timeToFullDevices = 0 →
      (∀ now, c.looks? v = some now → w.Full →
        w.first.timeToFullDevices = now - v.first.startTime) ∧
      (¬ ((c.looks? v).isSome ∧ w.Full) → w.first.timeToFullDevices = 0)) := by
  cases hlooks : c.looks? v with
  | none =>
    obtain ⟨htime, hstart⟩ := onSlots_blind hc hlooks hw
    rw [htime]
    exact ⟨hstart, fun _ => rfl, fun hzero => ⟨nofun, fun _ => hzero⟩⟩
  | some now =>
    obtain ⟨v', hv', htime, hstart⟩ := onSlots_looks hc hlooks
    obtain rfl : v'.updated true now = w := Option.some.inj (hv'.symm.trans hw)
    rw [updated_startTime, updated_full, ← htime, ← hstart]
    refine ⟨rfl, fun hne => by rw [updated_of_timed hne], fun hzero => ⟨?_, ?_⟩⟩
    · rintro _ ⟨⟩ hfull
      exact (updated_time hzero).1 hfull
    · intro hnot
      exact (updated_time hzero).2 fun hfull => hnot ⟨rfl, hfull⟩

/-! ## Runs -/

/-- The calls of the devices and of the other nodes for a simulation that started at `startTime`. -/
structure DeviceRun (id : String) (startTime : UInt64) (cs : List Call) : Prop where
  calls : ∀ c ∈ cs, c.id = id ∧ fromDevice c = true
  clock : ∀ c ∈ cs, ∀ now, c.clock? = some now → startTime < now

variable {cs : List Call} {startTime : UInt64}

theorem DeviceRun.init (h : DeviceRun id startTime (cs ++ [c])) : DeviceRun id startTime cs where
  calls c' hc' := h.calls c' (List.mem_append_left _ hc')
  clock c' hc' := h.clock c' (List.mem_append_left _ hc')

theorem clock_of_looks (h : c.looks? v = some now) : c.clock? = some now := by
  cases c with
  | connect => exact h
  | updateRemoteStatus now' simStatus index =>
    simp only [Call.looks?] at h
    split at h <;> cases h
    rfl
  | startSim | removeSim | disconnect | addOutMsg | addInMsg | endSim | setState => cases h

theorem sub_ne_zero_of_lt {a b : UInt64} (h : a < b) : b - a ≠ 0 := by
  intro hzero
  rw [← UInt64.sub_add_cancel b a, hzero, UInt64.zero_add] at h
  exact UInt64.lt_irrefl a h

/-- The time after a run: 0, or that of the first call that met the number. -/
structure Timely (id : String) (startTime : UInt64) (start : Statuses) (cs : List Call)
    (v : Slots) : Prop where
  startTime_eq : v.first.startTime = startTime
  unmet : ¬ Happens (step true) (Meets id) start cs → v.first.timeToFullDevices = 0
  met : Happens (step true) (Meets id) start cs → v.first.timeToFullDevices ≠ 0
  time : ∀ q c s t now, q ++ [c] <+: cs → run (step true) start q = some s →
    step true s c = some t → ¬ Happens (step true) (Meets id) start q → Meets id s c t →
    c.clock? = some now → v.first.timeToFullDevices = now - startTime

theorem meets_iff {s t : Statuses} (hv : s[id]? = some v) (hw : t[id]? = some w) :
    Meets id s c t ↔ (c.looks? v).isSome ∧ w.Full := by
  constructor
  · rintro ⟨v', w', hv', hw', hlooks, hfull⟩
    cases hv.symm.trans hv'
    cases hw.symm.trans hw'
    exact ⟨hlooks, hfull⟩
  · rintro ⟨hlooks, hfull⟩
    exact ⟨v, w, hv, hw, hlooks, hfull⟩

theorem Timely.snoc {start s t : Statuses} (h : Timely id startTime start cs v)
    (hrun : DeviceRun id startTime (cs ++ [c])) (hs : run (step true) start cs = some s)
    (hv : s[id]? = some v) (ht : step true s c = some t) :
    ∃ w, t[id]? = some w ∧ Timely id startTime start (cs ++ [c]) w := by
  obtain ⟨hid, hc⟩ := hrun.calls c (List.mem_append_right _ (List.mem_singleton_self c))
  have hget : t[id]? = c.onSlots true (some v) := by
    cases ht
    rw [getElem?_apply, if_pos hid, hv]
  obtain ⟨w, hw⟩ := exists_onSlots hc v
  obtain ⟨hstart, hkept, hfirst⟩ := time_of_call hc hw
  have htw : t[id]? = some w := hget.trans hw
  have hmeets := meets_iff (c := c) hv htw
  have hlast : ∀ now, c.looks? v = some now → startTime < now := fun now hlooks =>
    hrun.clock c (List.mem_append_right _ (List.mem_singleton_self c)) now (clock_of_looks hlooks)
  have hsnoc := (happens_snoc (P := Meets id) hs ht).trans (or_congr_right hmeets)
  refine ⟨w, htw, ?_⟩
  by_cases hbefore : Happens (step true) (Meets id) start cs
  · -- The time is set, and stays.
    have hset := h.met hbefore
    refine ⟨hstart.trans h.startTime_eq, fun hnot => absurd (hsnoc.mpr (.inl hbefore)) hnot,
      fun _ => (hkept hset).trans_ne hset, ?_⟩
    intro q c' s' t' now hq hs' ht' hnot hm hnow
    rcases List.prefix_concat_iff.mp hq with heq | hq
    · obtain ⟨rfl, rfl⟩ := List.append_singleton_inj.mp heq
      exact absurd hbefore hnot
    · rw [hkept hset]
      exact h.time q c' s' t' now hq hs' ht' hnot hm hnow
  · obtain ⟨hmet, hunmet⟩ := hfirst (h.unmet hbefore)
    rw [h.startTime_eq] at hmet
    refine ⟨hstart.trans h.startTime_eq, fun hnot => hunmet fun hm => hnot (hsnoc.mpr (.inr hm)),
      fun hhappens => ?_, ?_⟩
    · rcases hsnoc.mp hhappens with hhappened | ⟨hlooks, hfull⟩
      · exact absurd hhappened hbefore
      · obtain ⟨now, hnow⟩ := Option.isSome_iff_exists.mp hlooks
        rw [hmet now hnow hfull]
        exact sub_ne_zero_of_lt (hlast now hnow)
    · intro q c' s' t' now hq hs' ht' hnot hm hnow
      rcases List.prefix_concat_iff.mp hq with heq | hq
      · obtain ⟨rfl, rfl⟩ := List.append_singleton_inj.mp heq
        cases hs.symm.trans hs'
        cases ht.symm.trans ht'
        obtain ⟨hlooks, hfull⟩ := hmeets.mp hm
        obtain ⟨now', hnow'⟩ := Option.isSome_iff_exists.mp hlooks
        cases (clock_of_looks hnow').symm.trans hnow
        exact hmet now hnow' hfull
      · exact absurd ⟨q, c', s', t', hq, hs', ht', hm⟩ hbefore

/-- The time stays 0 until the first call that looks at the sum and leaves the number of devices
that is expected, is the time since the start then, and does not change again. -/
theorem timely {services : MicroServiceMetaVec} {details : SimulationDetails} {uinfo : UserInfo}
    {start t : Statuses} (hnew : ss[id]? = none) (hrun : DeviceRun id startTime cs)
    (hstart : start = startSim true startTime services ss id details uinfo)
    (ht : run (step true) start cs = some t) :
    ∃ v, t[id]? = some v ∧ Timely id startTime start cs v := by
  induction cs using List.reverseRecOn generalizing t with
  | nil =>
    cases ht
    have hget : start[id]? = some
        (Slots.start true services (started startTime id details uinfo) none) := by
      rw [hstart, ← hnew]
      exact getElem?_apply_self (.startSim startTime services id details uinfo)
    refine ⟨_, hget, rfl, fun _ => rfl, fun h => absurd h (not_happens_nil _ _), ?_⟩
    intro q c s t now hq
    cases q <;> cases List.prefix_nil.mp hq
  | append_singleton cs c ih =>
    obtain ⟨s, hs, hc⟩ := run_snoc_inv ht
    obtain ⟨v, hv, htimely⟩ := ih hrun.init hs
    exact htimely.snoc hrun hs hv hc

/-! ## A dropped report -/

/-- As `Meets`, for every report, whether there is a slot for it or not. -/
def MeetsAny (id : String) (_ : Statuses) (c : Call) (ss' : Statuses) : Prop :=
  c.clock?.isSome ∧ ∃ w, ss'[id]? = some w ∧ w.Full

def fiveDevices : Statuses := startSim true 0 ⟨[{}], by decide⟩ ∅ "a" { devices := 5 } {}

/-- The count passes five twice: upwards within a report, downwards with a `Disconnect`. -/
def passFive : List Call :=
  [.connect 1 "a", .updateRemoteStatus 2 { id := "a", liveDevices := 5 } 1, .disconnect "a"]

def dropped : Call := .updateRemoteStatus 3 { id := "a" } 2

theorem passFive_deviceRun : DeviceRun "a" 0 (passFive ++ [dropped]) where
  calls := by decide
  clock := by simp [passFive, dropped, Call.clock?]

theorem timely_passFive : ∃ t v, run (step true) fiveDevices (passFive ++ [dropped]) = some t ∧
    t["a"]? = some v ∧ Timely "a" 0 fiveDevices (passFive ++ [dropped]) v := by
  have hnew : (∅ : Statuses)["a"]? = none := Std.ExtTreeMap.getElem?_empty
  obtain ⟨v, hv, h⟩ := timely hnew passFive_deviceRun rfl rfl
  exact ⟨_, v, rfl, hv, h⟩

/-- A report for a slot that there is not finds as many devices as expected, and no time is set. -/
theorem dropped_report_unseen : ¬ ∀ cs t v, DeviceRun "a" 0 cs →
    run (step true) fiveDevices cs = some t → t["a"]? = some v →
    ∀ q c s u now, q ++ [c] <+: cs → run (step true) fiveDevices q = some s →
      step true s c = some u → ¬ Happens (step true) (MeetsAny "a") fiveDevices q →
      MeetsAny "a" s c u → c.clock? = some now → v.first.timeToFullDevices = now - 0 := by
  intro h
  have hnot : ¬ Happens (step true) (MeetsAny "a") fiveDevices passFive := by
    unfold passFive
    rw [happens_cons rfl, happens_cons rfl, happens_cons rfl]
    rintro (⟨-, w, ⟨⟩, hfull⟩ | ⟨-, w, ⟨⟩, hfull⟩ | ⟨hclock, -⟩ | hnil)
    · revert hfull
      decide
    · revert hfull
      decide
    · cases hclock
    · exact not_happens_nil _ _ hnil
  have htime := h (passFive ++ [dropped]) _ _ passFive_deviceRun rfl rfl passFive dropped _ _ 3
    (List.prefix_refl _) rfl rfl hnot ⟨rfl, _, rfl, by decide⟩ rfl
  revert htime
  decide

end Owls.SimStats
