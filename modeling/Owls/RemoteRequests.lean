import Mathlib.Data.List.TakeWhile
import Owls.Shares

/-!
# The requests to the other services

The three loops over `Services_` that call `PostAPI`: the starts in `SimulationRunner::run`,
`StopRemoteSimulation` and `CancelRemoteSimulation`.
-/

namespace Owls

open SimulationCoordinator SimulationRunner Word

/-! ## A loop that ends with a null pointer -/

section

variable {α β : Type} {answered : α → Bool} {l : List α}

theorem issue_completed_iff : (issue answered l).2 = true ↔ ∀ r ∈ l, answered r = true := by
  refine ⟨fun h => ?_, issue_of_answered⟩
  induction l with
  | nil => exact List.forall_mem_nil _
  | cons r l ih =>
    unfold issue at h
    split at h
    · rename_i hr
      exact List.forall_mem_cons.mpr ⟨hr, ih h⟩
    · cases h

theorem issue_all_iff : (issue answered l).1 = l ↔ ∀ r ∈ l.dropLast, answered r = true := by
  induction l with
  | nil => simp [issue]
  | cons r l ih =>
    unfold issue
    cases l with
    | nil =>
      split <;> simp [issue]
    | cons q l =>
      rw [List.dropLast_cons_cons, List.forall_mem_cons]
      split
      · rename_i hr
        simp only [List.cons.injEq, true_and, hr, ih]
      · rename_i hr
        simp [hr]

theorem issue_map (answered : β → Bool) (f : α → β) (l : List α) :
    ((issue (fun r => answered (f r)) l).1.map f, (issue (fun r => answered (f r)) l).2) =
      issue answered (l.map f) := by
  induction l with
  | nil => rfl
  | cons r l ih =>
    simp only [issue, List.map_cons, ← ih]
    split <;> rfl

end

/-! ## The services that are asked -/

/-- Every service gets one request. -/
def AsksAll (services : MicroServiceMetaVec) (sent : List MicroServiceMeta) : Prop :=
  sent = services.toList

/-- Every service gets one start, and `run` gets to its end, where the update timer starts. -/
def StartsAll (services : MicroServiceMetaVec) (answered : MicroServiceMeta → Bool)
    (a : RunnerArguments) (e : Entropy) : Prop :=
  ∃ out t, run true services answered a e = .ok (out, t) ∧
    AsksAll services (out.remotes.map (·.service)) ∧ out.completed = true

/-- Of the devices, those that a master with `n` remote services keeps for itself. -/
def ownDevices (devices n : Nat) : Nat := devices - devices / (n + 1) * n

/-- The constructor of `OWLSclient` neither throws nor traps for the device number. -/
structure Buildable (d : SimulationDetails) (deviceNumber : UInt64) : Prop where
  associations : d.minAssociations ≠ d.maxAssociations
  clients : d.minClients ≠ d.maxClients
  numbered : OWLSclient.Numbered (serialNumber d.macPrefix deviceNumber)

theorem remoteStarts_services (devices batchSize : UInt64) (l : List MicroServiceMeta)
    (start index : UInt64) :
    (remoteStarts devices batchSize l start index).map (·.service) = l := by
  induction l generalizing start index with
  | nil => rfl
  | cons service l ih => rw [remoteStarts, List.map_cons, ih]

theorem remoteRequests_services (operation : String) (l : List MicroServiceMeta)
    (status : SimulationStatus) :
    (remoteRequests operation l status).map (·.service) = l := by
  simp [remoteRequests, Function.comp_def]

theorem makeClients_ok_iff (d : SimulationDetails) (numbers : List UInt64) (e : Entropy) :
    (∃ clients t, makeClients d numbers e = .ok (clients, t)) ↔ ∀ n ∈ numbers, Buildable d n := by
  refine Draw.each_ok_iff (fun n e => ?_) numbers e
  rw [OWLSclient.new_ok_iff]
  exact ⟨fun ⟨ha, hc, hn⟩ => ⟨ha, hc, hn⟩, fun h => ⟨h.associations, h.clients, h.numbered⟩⟩

theorem mem_own {services : MicroServiceMetaVec} {answered : MicroServiceMeta → Bool}
    {a : RunnerArguments} {sh : Shares} (h : shares true services answered a = some sh)
    (n : UInt64) : n ∈ sh.numbers ↔
      n.toNat < ownDevices a.details.devices.toNat services.toList.length := by
  have hcount : ∀ first : UInt64, n ∈ countUp 0 first ↔ n.toNat < first.toNat := by
    intro first
    have hzero : (0 : UInt64) ≤ n := UInt64.le_iff_toNat_le.mpr (Nat.zero_le _)
    rw [mem_countUp, and_iff_right hzero, UInt64.lt_iff_toNat_lt]
  by_cases halone : services.toList = []
  · simp only [shares, halone, List.isEmpty_nil, Bool.not_true, Bool.and_false, Bool.false_eq_true,
      if_false, if_true, UInt64.add_zero, Option.some.injEq] at h
    subst h
    rw [hcount, halone, ownDevices, List.length_nil, Nat.mul_zero, Nat.sub_zero]
  · rcases Nat.lt_or_ge a.details.devices.toNat (services.toList.length + 1) with hfew | henough
    · simp [shares, halone, batch_eq_none hfew] at h
    · obtain ⟨b, p, hbatch, -, htotal⟩ := batch_spec henough
      have hquotient := batch_quotient hbatch
      simp [shares, halone, hbatch] at h
      subst h
      have hlt := a.details.devices.toNat_lt
      rw [Nat.mul_succ] at htotal
      rw [hcount, toNat_add_of_lt (by omega), ownDevices, ← hquotient]
      omega

theorem shares_asksAll_iff (services : MicroServiceMetaVec) (answered : MicroServiceMeta → Bool)
    (a : RunnerArguments) :
    (∃ sh, shares true services answered a = some sh ∧
        AsksAll services (sh.remotes.map (·.service)) ∧ sh.completed = true) ↔
      (services.toList = [] ∨ services.toList.length + 1 ≤ a.details.devices.toNat) ∧
        ∀ s ∈ services.toList, answered s = true := by
  by_cases halone : services.toList = []
  · simp [AsksAll, shares, halone]
  rw [or_iff_right halone]
  rcases Nat.lt_or_ge a.details.devices.toNat (services.toList.length + 1) with hfew | henough
  · have htrap := batch_eq_none hfew
    have hshares : shares true services answered a = none := by simp [shares, halone, htrap]
    simp only [hshares, reduceCtorEq, false_and, exists_false, false_iff, not_and]
    omega
  · obtain ⟨b, p, hbatch, -⟩ := batch_spec henough
    set starts := remoteStarts a.details.devices b services.toList (b + p) 1 with hstarts
    have hissue := issue_map answered RemoteStart.service starts
    rw [hstarts, remoteStarts_services, ← hstarts] at hissue
    have hcompleted := congrArg Prod.snd hissue
    have hsent := congrArg Prod.fst hissue
    simp only at hcompleted hsent
    have hshares : shares true services answered a =
        some { numbers := countUp 0 (b + p), remotes := (issue (answered ·.service) starts).1,
               completed := (issue (answered ·.service) starts).2 } := by
      simp [shares, halone, hbatch, hstarts]
    simp only [AsksAll, hshares, Option.some.injEq, exists_eq_left', hsent, hcompleted,
      issue_completed_iff, and_iff_right henough]
    refine and_iff_right_of_imp fun hall => issue_completed (issue_of_answered hall)

theorem startsAll_iff (services : MicroServiceMetaVec) (answered : MicroServiceMeta → Bool)
    (a : RunnerArguments) (e : Entropy) :
    StartsAll services answered a e ↔
      (services.toList = [] ∨ services.toList.length + 1 ≤ a.details.devices.toNat) ∧
        (∀ n : UInt64, n.toNat < ownDevices a.details.devices.toNat services.toList.length →
          Buildable a.details n) ∧
        ∀ s ∈ services.toList, answered s = true := by
  rw [and_left_comm, ← shares_asksAll_iff]
  constructor
  · rintro ⟨out, t, hrun, hasks, hcompleted⟩
    obtain ⟨hshares, hclients⟩ := run_ok_iff.mp hrun
    have hbuildable := (makeClients_ok_iff _ _ e).mp ⟨out.clients, t, hclients⟩
    exact ⟨fun n hn => hbuildable n ((mem_own hshares n).mpr hn), out.toShares, hshares, hasks,
      hcompleted⟩
  · rintro ⟨hbuildable, sh, hshares, hasks, hcompleted⟩
    obtain ⟨clients, t, hclients⟩ := (makeClients_ok_iff a.details sh.numbers e).mpr
      fun n hn => hbuildable n ((mem_own hshares n).mp hn)
    exact ⟨{ sh with clients }, t, run_ok_iff.mpr ⟨hshares, hclients⟩, hasks, hcompleted⟩

theorem stop_asksAll_iff (node : Node) (s : State) (id : String) (uinfo : UserInfo)
    (answered : MicroServiceMeta → Bool) :
    AsksAll s.services ((stopRemoteSimulation node s id uinfo answered).map (·.service)) ↔
      ∀ x ∈ s.services.toList.dropLast, answered x = true := by
  have hissue := congrArg Prod.fst (issue_map answered RemoteRequest.service
    (remoteRequests "stop" s.services.toList
      (SimStats.getCurrent node.master s.statuses id {} uinfo)))
  rw [remoteRequests_services] at hissue
  rw [AsksAll, stopRemoteSimulation, ← issue_all_iff, ← hissue]

theorem cancel_asksAll_iff (node : Node) (s : State) (id : String) (uinfo : UserInfo)
    (parses : String → Bool) (answered : MicroServiceMeta → Bool) :
    AsksAll s.services
        ((cancelRemoteSimulation node s id uinfo parses answered).map (·.service)) ↔
      (∀ x ∈ s.services.toList, parses x.publicEndPoint = true) ∧
        ∀ x ∈ s.services.toList.dropLast, answered x = true := by
  set services := s.services.toList.takeWhile (parses ·.publicEndPoint) with hservices
  have hissue := congrArg Prod.fst (issue_map answered RemoteRequest.service
    (remoteRequests "cancel" services (SimStats.getCurrent node.master s.statuses id {} uinfo)))
  rw [remoteRequests_services] at hissue
  have hasked : AsksAll s.services
      ((cancelRemoteSimulation node s id uinfo parses answered).map (·.service)) ↔
        (issue answered services).1 = s.services.toList := by
    rw [AsksAll, cancelRemoteSimulation, ← hservices, ← hissue]
  rw [hasked]
  constructor
  · intro h
    -- What is asked is a first part of `services`, itself a first part of the list.
    have hprefix : s.services.toList <+: services := h ▸ issue_prefix answered services
    have heq : services = s.services.toList :=
      (List.takeWhile_prefix _).eq_of_length_le hprefix.length_le
    rw [heq] at h
    exact ⟨List.takeWhile_eq_self_iff.mp (hservices.symm.trans heq), issue_all_iff.mp h⟩
  · rintro ⟨hparses, hanswered⟩
    rw [hservices, List.takeWhile_eq_self_iff.mpr hparses]
    exact issue_all_iff.mpr hanswered

/-- Each of the three loops asks every service exactly when the services before the last one
answer; the starts also need a device for every node, the clients of the master's own share, and
the answer of the last one, for the update timer. -/
theorem asks_all_iff (node : Node) (s : State) (a : RunnerArguments) (id : String)
    (uinfo : UserInfo) (parses : String → Bool)
    (started stopped cancelled : MicroServiceMeta → Bool) (e : Entropy) :
    (StartsAll s.services started a e ↔
      (s.services.toList = [] ∨ s.services.toList.length + 1 ≤ a.details.devices.toNat) ∧
        (∀ n : UInt64, n.toNat < ownDevices a.details.devices.toNat s.services.toList.length →
          Buildable a.details n) ∧
        ∀ x ∈ s.services.toList, started x = true) ∧
    (AsksAll s.services ((stopRemoteSimulation node s id uinfo stopped).map (·.service)) ↔
      ∀ x ∈ s.services.toList.dropLast, stopped x = true) ∧
    (AsksAll s.services
        ((cancelRemoteSimulation node s id uinfo parses cancelled).map (·.service)) ↔
      (∀ x ∈ s.services.toList, parses x.publicEndPoint = true) ∧
        ∀ x ∈ s.services.toList.dropLast, cancelled x = true) :=
  ⟨startsAll_iff s.services started a e, stop_asksAll_iff node s id uinfo stopped,
    cancel_asksAll_iff node s id uinfo parses cancelled⟩

def twoServices : MicroServiceMetaVec := ⟨[{ id := 1 }, { id := 2 }], by decide⟩

/-- Of the two services the first is out of reach. -/
def secondAnswers (s : MicroServiceMeta) : Bool := s.id != 1

/-- A valid definition, of which the master keeps four devices. -/
def tenDevices : RunnerArguments :=
  { details := { OWLSclient.sampleDetails with devices := 10 }, runningId := "r", uinfo := {} }

/-- Nothing keeps the clients of the master from being built, and none of the loops asks the
second service. -/
theorem second_service_not_asked :
    validateSimulation tenDevices.details = true ∧
    (∀ n : UInt64, n.toNat < ownDevices tenDevices.details.devices.toNat 2 →
      Buildable tenDevices.details n) ∧
    ¬ StartsAll twoServices secondAnswers tenDevices OWLSclient.zeros ∧
    ¬ AsksAll twoServices
        ((stopRemoteSimulation {} { services := twoServices } "r" {} secondAnswers).map
          (·.service)) ∧
    ¬ AsksAll twoServices ((cancelRemoteSimulation {} { services := twoServices } "r" {}
        (fun _ => true) secondAnswers).map (·.service)) := by
  rw [startsAll_iff, stop_asksAll_iff {} { services := twoServices },
    cancel_asksAll_iff {} { services := twoServices }]
  have hbuildable : ∀ n : UInt64, n.toNat < ownDevices tenDevices.details.devices.toNat 2 →
      Buildable tenDevices.details n := by
    intro n hn
    change n.toNat < 4 at hn
    have hlt : n < 2 ^ 20 := UInt64.lt_iff_toNat_lt.mpr (Nat.lt_trans hn (by decide))
    exact ⟨by decide, by decide, _, serialNumberToInt_serialNumber (by decide) (by decide) hlt⟩
  refine ⟨by decide, hbuildable, ?_, by decide, by decide⟩
  rintro ⟨-, -, hall⟩
  exact absurd hall (by decide)

end Owls
