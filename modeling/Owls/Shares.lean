import Owls.Base.Blocks
import Owls.Operation
import Owls.Serials

/-!
# How a simulation is shared between services

The devices that `SimulationRunner::run` starts on its own node, and those that it leaves to
the remote services.
-/

open Draw Word

namespace Owls.SimulationRunner

open SimulationCoordinator

/-! ## `run` -/

structure RemoteStart where
  service : MicroServiceMeta
  offset : UInt64
  limit : UInt64
  index : UInt64

def RemoteStart.query (r : RemoteStart) (runningId masterURI accessKey : String) : Parameters :=
  [("operation", "start"), ("joinRunningId", runningId), ("masterURI", masterURI),
   ("offset", toDecimal r.offset), ("limit", toDecimal r.limit), ("index", toDecimal r.index),
   ("accessKey", accessKey)]

/-- `BatchSize` and `Pad`; `none` where the division traps. -/
def batch (services : MicroServiceMetaVec) (devices : UInt64) : Option (UInt64 × UInt64) := do
  let batchSize ← div? devices (services.size + 1)
  let pad ← mod? devices (batchSize * (services.size + 1))
  return (batchSize, pad)

def remoteStarts (devices batchSize : UInt64) :
    List MicroServiceMeta → UInt64 → UInt64 → List RemoteStart
  | [], _, _ => []
  | service :: services, startValue, index =>
    ⟨service, startValue, min batchSize (devices - startValue), index⟩ ::
      remoteStarts devices batchSize services (startValue + batchSize) (index + 1)

/-- The device numbers that the loop of the service goes over, the requests sent, and whether all
of them were answered. -/
structure Shares where
  numbers : List UInt64
  remotes : List RemoteStart := []
  completed : Bool := true

/-- The arithmetic of `run`, without its clients; `none` where a division traps. -/
def shares (master : Bool) (services : MicroServiceMetaVec) (answered : MicroServiceMeta → Bool)
    (a : RunnerArguments) : Option Shares :=
  if master && !services.toList.isEmpty then do
    let (batchSize, pad) ← batch services a.details.devices
    let starts := remoteStarts a.details.devices batchSize services.toList (batchSize + pad) 1
    let (remotes, completed) := issue (answered ·.service) starts
    return { numbers := countUp 0 (batchSize + pad), remotes, completed }
  else
    let offset := if master then 0 else a.offset
    let limit := if master then a.details.devices else a.limit
    some { numbers := countUp offset (limit + offset) }

/-- The loop that builds the clients, until one of the constructors throws or traps. -/
def makeClients (d : SimulationDetails) (numbers : List UInt64) : Drawing (List Device) :=
  each (fun deviceNumber => OWLSclient.new d (serialNumber d.macPrefix deviceNumber)) numbers

/-- Where `run` got to: to its end and the start of the update timer if `completed`, else to the
request that threw. -/
structure Started extends Shares where
  clients : List Device

/-- `run`, as far as the clients and the requests go. An error is one of a division or of a
constructor: no request is sent then. -/
def run (master : Bool) (services : MicroServiceMetaVec) (answered : MicroServiceMeta → Bool)
    (a : RunnerArguments) : Drawing Started :=
  if master && !services.toList.isEmpty then
    match batch services a.details.devices with
    | none => throw .divisionByZero
    | some (batchSize, pad) => do
      let numbers := countUp 0 (batchSize + pad)
      let clients ← makeClients a.details numbers
      let starts := remoteStarts a.details.devices batchSize services.toList (batchSize + pad) 1
      let (remotes, completed) := issue (answered ·.service) starts
      return { numbers, remotes, completed, clients }
  else do
    let offset := if master then 0 else a.offset
    let limit := if master then a.details.devices else a.limit
    let numbers := countUp offset (limit + offset)
    let clients ← makeClients a.details numbers
    return { numbers, clients }

theorem run_eq (master : Bool) (services : MicroServiceMetaVec)
    (answered : MicroServiceMeta → Bool) (a : RunnerArguments) :
    run master services answered a =
      match shares master services answered a with
      | none => throw .divisionByZero
      | some sh => do return { sh with clients := ← makeClients a.details sh.numbers } := by
  unfold run shares
  split
  · cases batch services a.details.devices <;> rfl
  · rfl

theorem run_ok_iff {master : Bool} {services : MicroServiceMetaVec}
    {answered : MicroServiceMeta → Bool} {a : RunnerArguments} {r t : Entropy} {out : Started} :
    run master services answered a r = .ok (out, t) ↔
      shares master services answered a = some out.toShares ∧
        makeClients a.details out.numbers r = .ok (out.clients, t) := by
  rw [run_eq]
  cases shares master services answered a with
  | none =>
    simp only [reduceCtorEq, false_and, iff_false]
    intro h
    cases (stops_throw r).symm.trans h
  | some sh =>
    simp only [map_ok_iff, Option.some.injEq]
    constructor
    · rintro ⟨clients, hclients, rfl⟩
      exact ⟨rfl, hclients⟩
    · rintro ⟨rfl, hclients⟩
      exact ⟨out.clients, hclients, rfl⟩

/-! ## The sizes of the shares -/

variable {services : MicroServiceMetaVec} {devices batchSize pad : UInt64}

theorem batch_spec (h : services.toList.length + 1 ≤ devices.toNat) :
    ∃ b p, batch services devices = some (b, p) ∧ 1 ≤ b.toNat ∧
      b.toNat * (services.toList.length + 1) + p.toNat = devices.toNat := by
  have hn := services.toNat_size_add_one
  set n := services.toList.length with hlen
  have hsize : services.size + 1 ≠ 0 := ne_zero_iff.mpr (by omega)
  have hb : (devices / (services.size + 1)).toNat = devices.toNat / (n + 1) := by
    rw [UInt64.toNat_div, hn]
  have hpos : 1 ≤ devices.toNat / (n + 1) := Nat.div_pos h (by omega)
  have hle : devices.toNat / (n + 1) * (n + 1) ≤ devices.toNat := Nat.div_mul_le_self _ _
  have hmul : (devices / (services.size + 1) * (services.size + 1)).toNat =
      devices.toNat / (n + 1) * (n + 1) := by
    rw [toNat_mul_of_lt, hb, hn]
    rw [hb, hn]
    exact lt_of_le_of_lt hle devices.toNat_lt
  have hq : n + 1 ≤ devices.toNat / (n + 1) * (n + 1) := Nat.le_mul_of_pos_left _ hpos
  have hmod : devices / (services.size + 1) * (services.size + 1) ≠ 0 :=
    ne_zero_iff.mpr (by omega)
  refine ⟨_, _, by rw [batch, div?_of_ne_zero hsize, Option.bind_eq_bind, Option.bind_some,
    mod?_of_ne_zero hmod]; rfl, by omega, ?_⟩
  rw [UInt64.toNat_mod, hmul, hb]
  set q := devices.toNat / (n + 1) * (n + 1) with hqdef
  -- What `q` leaves of the devices is below `n + 1`, and so below `q`.
  have hrest := Nat.div_add_mod' devices.toNat (n + 1)
  have hlt : devices.toNat % (n + 1) < n + 1 := Nat.mod_lt _ (by omega)
  rw [Nat.mod_eq_sub_mod hle, Nat.mod_eq_of_lt (by omega)]
  omega

theorem batch_eq_none (h : devices.toNat < services.toList.length + 1) :
    batch services devices = none := by
  have hn := services.toNat_size_add_one
  have hsize : services.size + 1 ≠ 0 := ne_zero_iff.mpr (by omega)
  have hb : devices / (services.size + 1) = 0 := by
    rw [← UInt64.toNat_inj, UInt64.toNat_div, hn, Nat.div_eq_of_lt h]
    rfl
  simp [batch, div?_of_ne_zero hsize, hb, mod?]

theorem batch_quotient (h : batch services devices = some (batchSize, pad)) :
    batchSize.toNat = devices.toNat / (services.toList.length + 1) := by
  have hn := services.toNat_size_add_one
  have hsize : services.size + 1 ≠ 0 := ne_zero_iff.mpr (by omega)
  simp only [batch, div?_of_ne_zero hsize, Option.bind_eq_bind, Option.bind_some,
    Option.bind_eq_some_iff] at h
  obtain ⟨_, -, h⟩ := h
  cases h
  rw [UInt64.toNat_div, hn]

/-! ## The requests -/

theorem limit_eq {start : UInt64} (h : start.toNat + batchSize.toNat ≤ devices.toNat) :
    min batchSize (devices - start) = batchSize := by
  have hsub : (devices - start).toNat = devices.toNat - start.toNat :=
    UInt64.toNat_sub_of_le _ _ (UInt64.le_iff_toNat_le.mpr (by omega))
  rw [← UInt64.toNat_inj, toNat_min, hsub]
  omega

theorem next_start {start : UInt64} (h : start.toNat + batchSize.toNat ≤ devices.toNat) :
    (start + batchSize).toNat = start.toNat + batchSize.toNat :=
  toNat_add_of_lt (lt_of_le_of_lt h devices.toNat_lt)

theorem remoteStarts_consecutive (l : List MicroServiceMeta) (start index : UInt64)
    (h : start.toNat + batchSize.toNat * l.length = devices.toNat) :
    Blocks.Consecutive start.toNat
      ((remoteStarts devices batchSize l start index).map fun r =>
        (r.offset.toNat, r.offset.toNat + r.limit.toNat))
      devices.toNat := by
  induction l generalizing start index with
  | nil =>
    rw [List.length_nil, Nat.mul_zero, Nat.add_zero] at h
    rw [remoteStarts, List.map_nil, h]
    exact .nil _
  | cons service l ih =>
    rw [List.length_cons, Nat.mul_succ] at h
    have hfits : start.toNat + batchSize.toNat ≤ devices.toNat := by omega
    have hnext := next_start hfits
    rw [remoteStarts, List.map_cons, limit_eq hfits, ← hnext]
    exact .cons (by omega) (ih _ _ (by omega))

/-- The arithmetic of the sharing traps nowhere, and none of its two subtractions, the
`BatchSize+Pad-1` of the log line and the `devices-StartValue` of the loop, wraps. -/
def Sound (services : MicroServiceMetaVec) (devices : UInt64) : Prop :=
  ∃ b p, batch services devices = some (b, p) ∧ 1 ≤ b + p ∧
    ∀ r ∈ remoteStarts devices b services.toList (b + p) 1, r.offset ≤ devices

/-- The arithmetic is sound exactly when there is a device for every node. -/
theorem sound_iff (services : MicroServiceMetaVec) (devices : UInt64) :
    Sound services devices ↔ services.toList.length + 1 ≤ devices.toNat := by
  constructor
  · rintro ⟨b, p, hbatch, -⟩
    by_contra hlt
    rw [batch_eq_none (by omega)] at hbatch
    cases hbatch
  · intro h
    obtain ⟨b, p, hbatch, hb, htotal⟩ := batch_spec h
    rw [Nat.mul_succ] at htotal
    have hfirst : (b + p).toNat = b.toNat + p.toNat :=
      toNat_add_of_lt (lt_of_le_of_lt (by omega) devices.toNat_lt)
    refine ⟨b, p, hbatch, UInt64.le_iff_toNat_le.mpr ?_, fun r hr => ?_⟩
    · rw [hfirst]
      simp
      omega
    · have hend : (b + p).toNat + b.toNat * services.toList.length = devices.toNat := by
        rw [hfirst]
        omega
      have hblocks := remoteStarts_consecutive services.toList (b + p) 1 hend
      have hbounds := hblocks.mem_bounds (List.mem_map_of_mem hr)
      have hle : r.offset.toNat ≤ devices.toNat := hbounds.2.1.trans hbounds.2.2
      exact UInt64.le_iff_toNat_le.mpr hle

/-- One remote service is enough for a valid definition with one device to trap. -/
theorem one_device_traps :
    ¬ ∀ (s : SimulationDetails) (services : MicroServiceMetaVec), validateSimulation s = true →
      services.toList ≠ [] → Sound services s.devices := by
  intro h
  obtain ⟨b, p, hbatch, -⟩ := h
    { name := "s", gateway := "gw", deviceType := "x64_vm", macPrefix := "aabbcc", devices := 1 }
    ⟨[{}], by decide⟩ (by decide) (by decide)
  rw [batch_eq_none (by decide)] at hbatch
  cases hbatch

/-! ## Every device is started once -/

/-- The arguments of the runner that the service makes of its share. -/
def RemoteStart.arguments (r : RemoteStart) (a : RunnerArguments) : RunnerArguments :=
  { a with offset := r.offset, limit := r.limit }

/-- The device numbers that the service starts: its own `run`, on the share it was sent. -/
def RemoteStart.numbers (r : RemoteStart) (a : RunnerArguments) : List UInt64 :=
  match shares false {} (fun _ => true) (r.arguments a) with
  | some sh => sh.numbers
  | none => []

/-- What `run` does on a master with enough devices: the starts continue where its own devices
end, and it sends some first part of them. -/
structure Split (services : MicroServiceMetaVec) (answered : MicroServiceMeta → Bool)
    (a : RunnerArguments) (sh : Shares) (first : UInt64) (starts : List RemoteStart) : Prop where
  own : sh.numbers = countUp 0 first
  blocks : Blocks.Consecutive first.toNat
    (starts.map fun r => (r.offset.toNat, r.offset.toNat + r.limit.toNat)) a.details.devices.toNat
  sent : sh.remotes <+: starts
  allSent : sh.completed = true → sh.remotes = starts
  ends : (∀ s ∈ services.toList, answered s = true) → sh.completed = true
  accepted : ∀ r ∈ starts, r.offset ≠ 0 ∧ r.limit ≠ 0 ∧ r.index ≠ 0

section

variable {services : MicroServiceMetaVec} {answered : MicroServiceMeta → Bool}
  {a : RunnerArguments} {sh : Shares} {first : UInt64} {starts : List RemoteStart}

theorem Split.mem_own (h : Split services answered a sh first starts) (n : UInt64) :
    n ∈ sh.numbers ↔ n.toNat < first.toNat := by
  have hzero : (0 : UInt64) ≤ n := UInt64.le_iff_toNat_le.mpr (Nat.zero_le _)
  rw [h.own, mem_countUp, UInt64.lt_iff_toNat_lt, and_iff_right hzero]

end

end Owls.SimulationRunner
