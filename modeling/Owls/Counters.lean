import Owls.Memory

/-!
# Counters

`OWLSclient::Update` and `Reset`, with the counters that the elements of a device keep. The same
code runs on the 64 bits that the counters have and on numbers that never wrap.
-/

open Draw Machine

namespace Owls

open OWLSutils (localRandom)

/-! ## Elements that count -/

/-- Counters: `add` is `+=` with a value that was drawn. -/
class Counting (α : Type) where
  zero : α
  add : α → Int → α
  value : α → Int

instance : Counting UInt64 where
  zero := 0
  add x d := x + .ofInt d
  value x := x.toNat

instance : Counting Int where
  zero := 0
  add x d := x + d
  value x := x

open Counting (zero add value)

variable {α : Type} [Counting α]

/-- A load is a quotient, which is kept here as its two operands. -/
structure MockCPULoad where
  size : UInt64
  load1 : Int × UInt64 := (0, 1)
  load5 : Int × UInt64 := (0, 1)
  load15 : Int × UInt64 := (0, 1)

/-- `MockAssociation` with its counters. -/
structure LiveAssociation (α : Type) extends MockAssociation where
  txBytes : α
  rxBytes : α
  rxDuration : α
  rxPackets : α
  connected : α
  inactive : α
  txDuration : α
  txFailed : α
  txPackets : α
  txRetries : α

/-- `MockRadio` with its counters. -/
structure LiveRadio (α : Type) extends MockRadio where
  activeMs : α
  busyMs : α
  receiveMs : α
  transmitMs : α
  noise : Int := -100
  temperature : Int := 40

structure MockCounters (α : Type) where
  collisions : α
  multicast : α
  rxBytes : α
  rxDropped : α
  rxErrors : α
  rxPackets : α
  txBytes : α
  txDropped : α
  txErrors : α
  txPackets : α

def MockCPULoad.next (l : MockCPULoad) : Drawing MockCPULoad := do
  let size := if l.size = 0 then 7 else l.size
  let drawn ← localRandom (10 * size).toInt64.toInt (100 * size).toInt64.toInt
  return { size, load15 := l.load5, load5 := l.load1, load1 := (drawn, 75 * size) }

def MockCPULoad.reset (l : MockCPULoad) : MockCPULoad := { size := l.size }

def LiveAssociation.next (a : LiveAssociation α) : Drawing (LiveAssociation α) := do
  let ackSignal ← localRandom (-5) 5
  let connected ← localRandom 100 500
  let inactive ← localRandom 100 500
  let rssi ← localRandom (-2) 2
  let newRxPackets ← localRandom 200 2000
  let rxSize ← localRandom 500 1000
  let rxDuration ← localRandom 400 1750
  let newTxPackets ← localRandom 100 300
  let txSize ← localRandom 500 1000
  let txDuration ← localRandom 400 1750
  let failures ← localRandom 0 3
  let failed ← localRandom 800 1200
  let txRetries ← localRandom 0 3
  return { a with
    ackSignal := a.ackSignalAvg + ackSignal
    connected := add a.connected connected
    inactive := add a.inactive inactive
    rssi := a.rssi + rssi
    rxPackets := add a.rxPackets newRxPackets
    rxBytes := add a.rxBytes (newRxPackets * rxSize)
    rxDuration := add a.rxDuration rxDuration
    txPackets := add a.txPackets newTxPackets
    txBytes := add a.txBytes (newTxPackets * txSize)
    txDuration := add a.txDuration txDuration
    txFailed := add a.txFailed (failures * failed)
    txRetries := add a.txRetries txRetries }

def LiveAssociation.reset (a : LiveAssociation α) : LiveAssociation α :=
  { a with
    ackSignal := a.ackSignalAvg
    connected := zero
    inactive := zero
    rxPackets := zero
    rxBytes := zero
    rxDuration := zero
    txPackets := zero
    txBytes := zero
    txDuration := zero
    txFailed := zero
    txRetries := zero }

/-- The bounds of `transmit_ms` are the other way round. -/
def LiveRadio.next (r : LiveRadio α) : Drawing (LiveRadio α) := do
  let temperature ← localRandom (-7) 7
  let noise ← localRandom (-3) 3
  let activeMs ← localRandom 100 2000
  let busyMs ← localRandom 200 3000
  let receiveMs ← localRandom 500 1500
  let transmitMs ← localRandom 250 100
  return { r with
    temperature := 50 + temperature
    noise := -95 + noise
    activeMs := add r.activeMs activeMs
    busyMs := add r.busyMs busyMs
    receiveMs := add r.receiveMs receiveMs
    transmitMs := add r.transmitMs transmitMs }

def LiveRadio.reset (r : LiveRadio α) : LiveRadio α :=
  { r with activeMs := zero, busyMs := zero, receiveMs := zero, transmitMs := zero }

def MockCounters.next (c : MockCounters α) : Drawing (MockCounters α) := do
  let multicast ← localRandom 10 100
  let collisions ← localRandom 0 1
  let rxDropped ← localRandom 0 2
  let rxErrors ← localRandom 0 3
  let newRxPackets ← localRandom 300 2000
  let rxSize ← localRandom 900 1400
  let txDropped ← localRandom 0 2
  let txErrors ← localRandom 0 3
  let newTxPackets ← localRandom 300 2000
  let txSize ← localRandom 900 1400
  return {
    multicast := add c.multicast multicast
    collisions := add c.collisions collisions
    rxDropped := add c.rxDropped rxDropped
    rxErrors := add c.rxErrors rxErrors
    rxPackets := add c.rxPackets newRxPackets
    rxBytes := add c.rxBytes (newRxPackets * rxSize)
    txDropped := add c.txDropped txDropped
    txErrors := add c.txErrors txErrors
    txPackets := add c.txPackets newTxPackets
    txBytes := add c.txBytes (newTxPackets * txSize) }

def MockCounters.reset (_ : MockCounters α) : MockCounters α :=
  ⟨zero, zero, zero, zero, zero, zero, zero, zero, zero, zero⟩

/-! ## The device -/

/-- The tables of `OWLSclient` whose elements `Update` and `Reset` reach. -/
structure Live (α : Type) where
  memory : MockMemory := { size := 1 }
  load : MockCPULoad := { size := 1 }
  allRadios : List (RadioBands × LiveRadio α)
  allCounters : List (ApInterfaceTypes × MockCounters α)
  allAssociations : List (InterfaceLocation × List (LiveAssociation α))

/-- A loop over a map, whose keys stay. -/
def eachValue {κ β : Type} (next : β → Drawing β) (m : List (κ × β)) : Drawing (List (κ × β)) :=
  each (fun e => do return (e.1, ← next e.2)) m

namespace OWLSclient

def update (c : Live α) : Drawing (Live α) := do
  let memory ← c.memory.next
  let load ← c.load.next
  let allRadios ← eachValue LiveRadio.next c.allRadios
  let allCounters ← eachValue MockCounters.next c.allCounters
  let allAssociations ← eachValue (each LiveAssociation.next) c.allAssociations
  return { memory, load, allRadios, allCounters, allAssociations }

def reset (c : Live α) : Live α where
  memory := c.memory
  load := c.load.reset
  allRadios := c.allRadios.map fun e => (e.1, e.2.reset)
  allCounters := c.allCounters.map fun e => (e.1, e.2.reset)
  allAssociations := c.allAssociations.map fun e => (e.1, e.2.map LiveAssociation.reset)

/-- The elements as their constructors leave them. -/
def start (d : Device) : Live α where
  memory := { size := d.memory }
  load := { size := d.load }
  allRadios := d.allRadios.entries.map fun e => (e.1, ⟨e.2, zero, zero, zero, zero, -100, 40⟩)
  allCounters := d.allCounters.map fun role =>
    (role, ⟨zero, zero, zero, zero, zero, zero, zero, zero, zero, zero⟩)
  allAssociations := d.allAssociations.entries.map fun e => (e.1, e.2.map fun a =>
    ⟨a, zero, zero, zero, zero, zero, zero, zero, zero, zero, zero⟩)

/-- A call, with what its draws come from. -/
inductive Call
  | update (source : Entropy)
  | reset

def step (c : Live α) : Call → Option (Live α)
  | .update source => ((update c source).toOption).map Prod.fst
  | .reset => some (reset c)

end OWLSclient

/-! ## What the counters are -/

def LiveAssociation.counters (a : LiveAssociation α) : List α :=
  [a.connected, a.inactive, a.rxPackets, a.rxBytes, a.rxDuration, a.txPackets, a.txBytes,
    a.txDuration, a.txFailed, a.txRetries]

def LiveRadio.counters (r : LiveRadio α) : List α :=
  [r.activeMs, r.busyMs, r.receiveMs, r.transmitMs]

def MockCounters.counters (c : MockCounters α) : List α :=
  [c.collisions, c.multicast, c.rxBytes, c.rxDropped, c.rxErrors, c.rxPackets, c.txBytes,
    c.txDropped, c.txErrors, c.txPackets]

def Live.counters (c : Live α) : List α :=
  c.allRadios.flatMap (fun e => e.2.counters) ++ c.allCounters.flatMap (fun e => e.2.counters) ++
    c.allAssociations.flatMap fun e => e.2.flatMap LiveAssociation.counters

/-- As many bytes as the packets can have. -/
def Filled (lo hi : Int) (packets bytes : α) : Prop :=
  lo * value packets ≤ value bytes ∧ value bytes ≤ hi * value packets

def LiveAssociation.Balanced (a : LiveAssociation α) : Prop :=
  Filled 500 1000 a.rxPackets a.rxBytes ∧ Filled 500 1000 a.txPackets a.txBytes

def MockCounters.Balanced (c : MockCounters α) : Prop :=
  Filled 900 1400 c.rxPackets c.rxBytes ∧ Filled 900 1400 c.txPackets c.txBytes

structure Live.Balanced (c : Live α) : Prop where
  associations : ∀ e ∈ c.allAssociations, ∀ a ∈ e.2, a.Balanced
  counters : ∀ e ∈ c.allCounters, e.2.Balanced

/-- No counter has left its 64 bits. -/
def Live.Fits (c : Live Int) : Prop := ∀ x ∈ c.counters, x < 2 ^ 64

/-! ## One draw -/

theorem returns_localRandom_between {a b : Int} (h : a ≤ b) :
    Returns (localRandom a b) fun n => a ≤ n ∧ n ≤ b := by
  intro r
  have hpos : 0 < (b - a + 1).toNat := by omega
  have hlt := Nat.mod_lt r.gen.head.toNat hpos
  refine ⟨a + (r.gen.head.toNat % (b - a + 1).toNat : Nat), { r with gen := r.gen.tail }, ?_, ?_⟩
  · simp only [localRandom, Int.min_eq_left h, Int.max_eq_right h]
  · omega

theorem localRandom_swap (a b : Int) : localRandom a b = localRandom b a := by
  funext r
  simp only [localRandom, Int.min_comm a b, Int.max_comm a b]

/-- What one call can add: at most 2000 packets of 1400 bytes. -/
def Grown (x y : Int) : Prop := x ≤ y ∧ y ≤ x + 2800000

theorem grown_add {x d : Int} (h : 0 ≤ d) (hd : d ≤ 2800000) : Grown x (add x d) := by
  change x ≤ x + d ∧ x + d ≤ x + 2800000
  omega

theorem product_bounds {p q lo hi : Int} (hp : 0 ≤ p) (hlo : lo ≤ q) (hhi : q ≤ hi) :
    lo * p ≤ p * q ∧ p * q ≤ hi * p := by
  rw [Int.mul_comm p q]
  exact ⟨Int.mul_le_mul_of_nonneg_right hlo hp, Int.mul_le_mul_of_nonneg_right hhi hp⟩

theorem Filled.add {packets bytes p q lo hi : Int} (h : Filled lo hi packets bytes) (hp : 0 ≤ p)
    (hlo : lo ≤ q) (hhi : q ≤ hi) :
    Filled lo hi (Counting.add packets p) (Counting.add bytes (p * q)) := by
  obtain ⟨hl, hh⟩ := h
  obtain ⟨hpl, hph⟩ := product_bounds hp hlo hhi
  change lo * packets ≤ bytes at hl
  change bytes ≤ hi * packets at hh
  change lo * (packets + p) ≤ bytes + p * q ∧ bytes + p * q ≤ hi * (packets + p)
  rw [Int.mul_add, Int.mul_add]
  omega

/-! ## One element -/

/-- What `next` does to the counters of an element, one by one. -/
abbrev Grows : List Int → List Int → Prop := List.Forall₂ Grown

theorem returns_nextAssociation (a : LiveAssociation Int) :
    Returns a.next fun b => Grows a.counters b.counters ∧ (a.Balanced → b.Balanced) := by
  refine (returns_localRandom_between (by decide)).bind fun ackSignal _ => ?_
  refine (returns_localRandom_between (by decide)).bind fun connected hconnected => ?_
  refine (returns_localRandom_between (by decide)).bind fun inactive hinactive => ?_
  refine (returns_localRandom_between (by decide)).bind fun rssi _ => ?_
  refine (returns_localRandom_between (by decide)).bind fun rxPackets hrxPackets => ?_
  refine (returns_localRandom_between (by decide)).bind fun rxSize hrxSize => ?_
  refine (returns_localRandom_between (by decide)).bind fun rxDuration hrxDuration => ?_
  refine (returns_localRandom_between (by decide)).bind fun txPackets htxPackets => ?_
  refine (returns_localRandom_between (by decide)).bind fun txSize htxSize => ?_
  refine (returns_localRandom_between (by decide)).bind fun txDuration htxDuration => ?_
  refine (returns_localRandom_between (by decide)).bind fun failures hfailures => ?_
  refine (returns_localRandom_between (by decide)).bind fun failed hfailed => ?_
  refine (returns_localRandom_between (by decide)).bind fun txRetries htxRetries => ?_
  have hrx := product_bounds (by omega : 0 ≤ rxPackets) hrxSize.1 hrxSize.2
  have htx := product_bounds (by omega : 0 ≤ txPackets) htxSize.1 htxSize.2
  have hlost := product_bounds (by omega : 0 ≤ failures) hfailed.1 hfailed.2
  refine returns_pure ⟨?_, fun h => ⟨?_, ?_⟩⟩
  · repeat' first | exact .nil | refine .cons (grown_add (by omega) (by omega)) ?_
  · exact h.1.add (by omega) hrxSize.1 hrxSize.2
  · exact h.2.add (by omega) htxSize.1 htxSize.2

theorem returns_nextRadio (r : LiveRadio Int) :
    Returns r.next fun s => Grows r.counters s.counters := by
  refine (returns_localRandom_between (by decide)).bind fun temperature _ => ?_
  refine (returns_localRandom_between (by decide)).bind fun noise _ => ?_
  refine (returns_localRandom_between (by decide)).bind fun activeMs hactiveMs => ?_
  refine (returns_localRandom_between (by decide)).bind fun busyMs hbusyMs => ?_
  refine (returns_localRandom_between (by decide)).bind fun receiveMs hreceiveMs => ?_
  rw [localRandom_swap]
  refine (returns_localRandom_between (by decide)).bind fun transmitMs htransmitMs => ?_
  refine returns_pure ?_
  repeat' first | exact .nil | refine .cons (grown_add (by omega) (by omega)) ?_

theorem returns_nextCounters (c : MockCounters Int) :
    Returns c.next fun d => Grows c.counters d.counters ∧ (c.Balanced → d.Balanced) := by
  refine (returns_localRandom_between (by decide)).bind fun multicast hmulticast => ?_
  refine (returns_localRandom_between (by decide)).bind fun collisions hcollisions => ?_
  refine (returns_localRandom_between (by decide)).bind fun rxDropped hrxDropped => ?_
  refine (returns_localRandom_between (by decide)).bind fun rxErrors hrxErrors => ?_
  refine (returns_localRandom_between (by decide)).bind fun rxPackets hrxPackets => ?_
  refine (returns_localRandom_between (by decide)).bind fun rxSize hrxSize => ?_
  refine (returns_localRandom_between (by decide)).bind fun txDropped htxDropped => ?_
  refine (returns_localRandom_between (by decide)).bind fun txErrors htxErrors => ?_
  refine (returns_localRandom_between (by decide)).bind fun txPackets htxPackets => ?_
  refine (returns_localRandom_between (by decide)).bind fun txSize htxSize => ?_
  have hrx := product_bounds (by omega : 0 ≤ rxPackets) hrxSize.1 hrxSize.2
  have htx := product_bounds (by omega : 0 ≤ txPackets) htxSize.1 htxSize.2
  refine returns_pure ⟨?_, fun h => ⟨?_, ?_⟩⟩
  · repeat' first | exact .nil | refine .cons (grown_add (by omega) (by omega)) ?_
  · exact h.1.add (by omega) hrxSize.1 hrxSize.2
  · exact h.2.add (by omega) htxSize.1 htxSize.2

/-! ## The device -/

variable {κ β : Type}

theorem returns_eachValue {next : β → Drawing β} {R : β → β → Prop}
    (h : ∀ b, Returns (next b) (R b)) (m : List (κ × β)) :
    Returns (eachValue next m) (List.Forall₂ (fun e f => R e.2 f.2) m) := by
  have hentry (e : κ × β) : Returns (do return (e.1, ← next e.2)) fun f => R e.2 f.2 :=
    (h e.2).bind fun b hb => returns_pure hb
  exact Returns.each hentry m

theorem grows_flatMap {as bs : List β} {f : β → List Int}
    (h : List.Forall₂ (fun a b => Grows (f a) (f b)) as bs) :
    Grows (as.flatMap f) (bs.flatMap f) := by
  induction h with
  | nil => exact .nil
  | cons hab _ ih =>
    rw [List.flatMap_cons, List.flatMap_cons]
    exact List.rel_append hab ih

theorem forall_of_forall₂ {as bs : List β} {S : β → β → Prop} {P Q : β → Prop}
    (h : List.Forall₂ S as bs) (hS : ∀ a b, S a b → P a → Q b) (ha : ∀ a ∈ as, P a) :
    ∀ b ∈ bs, Q b := by
  induction h with
  | nil => exact List.forall_mem_nil Q
  | cons hab _ ih =>
    obtain ⟨hfirst, hrest⟩ := List.forall_mem_cons.mp ha
    exact List.forall_mem_cons.mpr ⟨hS _ _ hab hfirst, ih hrest⟩

theorem returns_memory (m : MockMemory) : Returns m.next fun _ => True :=
  (returns_localRandom _ _).bind fun _ _ => (returns_localRandom _ _).bind fun _ _ =>
    (returns_localRandom _ _).map fun _ _ => trivial

theorem returns_load (l : MockCPULoad) : Returns l.next fun _ => True :=
  (returns_localRandom _ _).map fun _ _ => trivial

theorem returns_update (c : Live Int) :
    Returns (OWLSclient.update c) fun d =>
      Grows c.counters d.counters ∧ (c.Balanced → d.Balanced) := by
  refine (returns_memory c.memory).bind fun memory _ => ?_
  refine (returns_load c.load).bind fun load _ => ?_
  refine (returns_eachValue returns_nextRadio _).bind fun radios hradios => ?_
  refine (returns_eachValue returns_nextCounters _).bind fun counters hcounters => ?_
  refine (returns_eachValue (Returns.each returns_nextAssociation) _).bind
    fun associations hassociations => ?_
  refine returns_pure ⟨?_, fun h => ⟨?_, ?_⟩⟩
  · refine List.rel_append (List.rel_append (grows_flatMap hradios) ?_) ?_
    · exact grows_flatMap (hcounters.imp fun _ _ h => h.1)
    · exact grows_flatMap (hassociations.imp fun _ _ h => grows_flatMap (h.imp fun _ _ h => h.1))
  · exact forall_of_forall₂ hassociations
      (fun _ _ hab => forall_of_forall₂ hab fun _ _ h => h.2) h.associations
  · exact forall_of_forall₂ hcounters (fun _ _ h => h.2) h.counters

/-! ## 64 bits -/

def LiveAssociation.wrap (a : LiveAssociation Int) : LiveAssociation UInt64 :=
  ⟨a.toMockAssociation, .ofInt a.txBytes, .ofInt a.rxBytes, .ofInt a.rxDuration,
    .ofInt a.rxPackets, .ofInt a.connected, .ofInt a.inactive, .ofInt a.txDuration,
    .ofInt a.txFailed, .ofInt a.txPackets, .ofInt a.txRetries⟩

def LiveRadio.wrap (r : LiveRadio Int) : LiveRadio UInt64 :=
  ⟨r.toMockRadio, .ofInt r.activeMs, .ofInt r.busyMs, .ofInt r.receiveMs, .ofInt r.transmitMs,
    r.noise, r.temperature⟩

def MockCounters.wrap (c : MockCounters Int) : MockCounters UInt64 :=
  ⟨.ofInt c.collisions, .ofInt c.multicast, .ofInt c.rxBytes, .ofInt c.rxDropped,
    .ofInt c.rxErrors, .ofInt c.rxPackets, .ofInt c.txBytes, .ofInt c.txDropped,
    .ofInt c.txErrors, .ofInt c.txPackets⟩

def Live.wrap (c : Live Int) : Live UInt64 where
  memory := c.memory
  load := c.load
  allRadios := c.allRadios.map fun e => (e.1, e.2.wrap)
  allCounters := c.allCounters.map fun e => (e.1, e.2.wrap)
  allAssociations := c.allAssociations.map fun e => (e.1, e.2.map LiveAssociation.wrap)

theorem add_ofInt (x d : Int) : add (UInt64.ofInt x) d = UInt64.ofInt (add x d) :=
  (UInt64.ofInt_add x d).symm

theorem nextAssociation_wrap (a : LiveAssociation Int) :
    a.wrap.next = LiveAssociation.wrap <$> a.next := by
  simp only [LiveAssociation.next, map_bind, map_pure, LiveAssociation.wrap, add_ofInt]

theorem nextRadio_wrap (r : LiveRadio Int) : r.wrap.next = LiveRadio.wrap <$> r.next := by
  simp only [LiveRadio.next, map_bind, map_pure, LiveRadio.wrap, add_ofInt]

theorem nextCounters_wrap (c : MockCounters Int) :
    c.wrap.next = MockCounters.wrap <$> c.next := by
  simp only [MockCounters.next, map_bind, map_pure, MockCounters.wrap, add_ofInt]

theorem eachValue_map {γ : Type} {next : β → Drawing β} {next' : γ → Drawing γ} (φ : β → γ)
    (h : ∀ b, next' (φ b) = φ <$> next b) (m : List (κ × β)) :
    eachValue next' (m.map fun e => (e.1, φ e.2)) =
      List.map (fun e => (e.1, φ e.2)) <$> eachValue next m := by
  refine each_map _ _ (fun e => ?_) m
  simp only [h, bind_map_left, map_bind, map_pure]

theorem update_wrap (c : Live Int) :
    OWLSclient.update c.wrap = Live.wrap <$> OWLSclient.update c := by
  simp only [OWLSclient.update, Live.wrap, map_bind, map_pure,
    eachValue_map _ nextRadio_wrap, eachValue_map _ nextCounters_wrap,
    eachValue_map _ (each_map _ _ nextAssociation_wrap), bind_map_left]

theorem reset_wrap (c : Live Int) : OWLSclient.reset c.wrap = (OWLSclient.reset c).wrap := by
  simp only [OWLSclient.reset, Live.wrap, List.map_map, Function.comp_def]
  rfl

theorem start_wrap (d : Device) : OWLSclient.start d = (OWLSclient.start d : Live Int).wrap := by
  simp only [OWLSclient.start, Live.wrap, List.map_map, Function.comp_def]
  rfl

theorem counters_wrap (c : Live Int) : c.wrap.counters = c.counters.map .ofInt := by
  simp only [Live.counters, Live.wrap, List.flatMap_map, List.map_append, List.map_flatMap]
  rfl

theorem map_apply {γ : Type} (f : β → γ) (m : Drawing β) (source : Entropy) :
    (f <$> m) source = (m source).map fun out => (f out.1, out.2) := by
  simp only [Functor.map, StateT.map, bind, Except.bind, Except.map]
  cases m source <;> rfl

theorem step_wrap (c : Live Int) (e : OWLSclient.Call) :
    OWLSclient.step c.wrap e = (OWLSclient.step c e).map Live.wrap := by
  cases e with
  | update source =>
    rw [OWLSclient.step, OWLSclient.step, update_wrap, map_apply]
    cases OWLSclient.update c source <;> rfl
  | reset => exact congrArg some (reset_wrap c)

theorem run_wrap (c : Live Int) (es : List OWLSclient.Call) :
    run OWLSclient.step c.wrap es = (run OWLSclient.step c es).map Live.wrap := by
  induction es generalizing c with
  | nil => rfl
  | cons e es ih =>
    rw [run_cons, run_cons, step_wrap]
    cases OWLSclient.step c e with
    | none => rfl
    | some d => exact ih d

/-! ## Exact runs -/

variable {c t : Live Int} {es : List OWLSclient.Call} {e : OWLSclient.Call} {d : Device}

theorem step_update {source : Entropy} (h : OWLSclient.step c (.update source) = some t) :
    Grows c.counters t.counters ∧ (c.Balanced → t.Balanced) := by
  obtain ⟨u, source', hu, hgrows⟩ := returns_update c source
  rw [OWLSclient.step, hu] at h
  exact Option.some.inj h ▸ hgrows

omit [Counting α] in
theorem forall_counters {c : Live α} {P : α → Prop} :
    (∀ x ∈ c.counters, P x) ↔
      (∀ e ∈ c.allRadios, ∀ x ∈ e.2.counters, P x) ∧
        (∀ e ∈ c.allCounters, ∀ x ∈ e.2.counters, P x) ∧
          ∀ e ∈ c.allAssociations, ∀ a ∈ e.2, ∀ x ∈ a.counters, P x := by
  simp only [Live.counters, List.forall_mem_append, List.forall_mem_flatMap, and_assoc]

theorem reset_counters (c : Live α) : ∀ x ∈ (OWLSclient.reset c).counters, x = zero := by
  refine forall_counters.mpr ⟨?_, ?_, ?_⟩
  · refine List.forall_mem_map.mpr fun e _ => ?_
    simp [LiveRadio.reset, LiveRadio.counters]
  · refine List.forall_mem_map.mpr fun e _ => ?_
    simp [MockCounters.reset, MockCounters.counters]
  · refine List.forall_mem_map.mpr fun e _ => List.forall_mem_map.mpr fun a _ => ?_
    simp [LiveAssociation.reset, LiveAssociation.counters]

theorem start_counters (d : Device) : ∀ x ∈ (OWLSclient.start d : Live α).counters, x = zero := by
  refine forall_counters.mpr ⟨?_, ?_, ?_⟩
  · refine List.forall_mem_map.mpr fun e _ => ?_
    simp [LiveRadio.counters]
  · refine List.forall_mem_map.mpr fun e _ => ?_
    simp [MockCounters.counters]
  · refine List.forall_mem_map.mpr fun e _ => List.forall_mem_map.mpr fun a _ => ?_
    simp [LiveAssociation.counters]

theorem filled_zero (lo hi : Int) : Filled lo hi (0 : Int) 0 := by
  change lo * 0 ≤ 0 ∧ 0 ≤ hi * 0
  omega

theorem balanced_of_zero (h : ∀ x ∈ c.counters, x = 0) : c.Balanced := by
  obtain ⟨-, hcounters, hassociations⟩ := forall_counters.mp h
  constructor
  · intro e he a ha
    have hzero := hassociations e he a ha
    simp only [LiveAssociation.counters, List.forall_mem_cons] at hzero
    obtain ⟨-, -, hrxPackets, hrxBytes, -, htxPackets, htxBytes, -⟩ := hzero
    rw [LiveAssociation.Balanced, hrxPackets, hrxBytes, htxPackets, htxBytes]
    exact ⟨filled_zero 500 1000, filled_zero 500 1000⟩
  · intro e he
    have hzero := hcounters e he
    simp only [MockCounters.counters, List.forall_mem_cons] at hzero
    obtain ⟨-, -, hrxBytes, -, -, hrxPackets, htxBytes, -, -, htxPackets, -⟩ := hzero
    rw [MockCounters.Balanced, hrxPackets, hrxBytes, htxPackets, htxBytes]
    exact ⟨filled_zero 900 1400, filled_zero 900 1400⟩

/-- What holds of an exact state after so many calls. -/
structure Counted (n : Nat) (c : Live Int) : Prop where
  balanced : c.Balanced
  bounds : ∀ x ∈ c.counters, 0 ≤ x ∧ x ≤ n * 2800000

theorem counted_of_zero (n : Nat) (h : ∀ x ∈ c.counters, x = 0) : Counted n c where
  balanced := balanced_of_zero h
  bounds x hx := by
    rw [h x hx]
    omega

theorem Counted.step {n : Nat} (h : Counted n c) (ht : OWLSclient.step c e = some t) :
    Counted (n + 1) t := by
  cases e with
  | update source =>
    obtain ⟨hgrows, hbalanced⟩ := step_update ht
    refine ⟨hbalanced h.balanced, forall_of_forall₂ hgrows (fun x y hxy hx => ?_) h.bounds⟩
    obtain ⟨hle, hlt⟩ := hxy
    omega
  | reset =>
    rw [← Option.some.inj ht]
    exact counted_of_zero _ (reset_counters c)

theorem counted_run (h : run OWLSclient.step (OWLSclient.start d) es = some c) :
    Counted es.length c := by
  induction es using List.reverseRecOn generalizing c with
  | nil => exact Option.some.inj h ▸ counted_of_zero 0 (start_counters d)
  | append_singleton es e ih =>
    obtain ⟨b, hb, hstep⟩ := run_snoc_inv h
    rw [List.length_append]
    exact (ih hb).step hstep

theorem forall₂_le_trans {xs ys zs : List Int} (h : List.Forall₂ (· ≤ ·) xs ys)
    (h' : List.Forall₂ (· ≤ ·) ys zs) : List.Forall₂ (· ≤ ·) xs zs := by
  induction h generalizing zs with
  | nil => exact h'
  | cons hxy _ ih =>
    cases h' with
    | cons hyz h' => exact .cons (Int.le_trans hxy hyz) (ih h')

theorem grows_run (hupdates : ∀ e ∈ es, ∃ source, e = .update source)
    (h : run OWLSclient.step c es = some t) : List.Forall₂ (· ≤ ·) c.counters t.counters := by
  induction es using List.reverseRecOn generalizing t with
  | nil =>
    rw [← Option.some.inj h]
    exact List.forall₂_same.mpr fun x _ => Int.le_refl x
  | append_singleton es e ih =>
    obtain ⟨b, hb, hstep⟩ := run_snoc_inv h
    obtain ⟨hbefore, hlast⟩ := List.forall_mem_append.mp hupdates
    obtain ⟨source, rfl⟩ := hlast e (List.mem_singleton_self e)
    exact forall₂_le_trans (ih hbefore hb) ((step_update hstep).1.imp fun _ _ hxy => hxy.1)

/-! ## Runs without overflow -/

theorem value_ofInt {x : Int} (h : 0 ≤ x) (hlt : x < 2 ^ 64) : value (UInt64.ofInt x) = x :=
  MockMemory.toNat_ofInt h hlt

theorem Filled.wrap {lo hi packets bytes : Int} (h : Filled lo hi packets bytes)
    (hpackets : 0 ≤ packets ∧ packets < 2 ^ 64) (hbytes : 0 ≤ bytes ∧ bytes < 2 ^ 64) :
    Filled lo hi (UInt64.ofInt packets) (UInt64.ofInt bytes) := by
  rw [Filled, value_ofInt hpackets.1 hpackets.2, value_ofInt hbytes.1 hbytes.2]
  exact h

theorem balanced_wrap (h : c.Balanced) (hbounds : ∀ x ∈ c.counters, 0 ≤ x ∧ x < 2 ^ 64) :
    c.wrap.Balanced := by
  obtain ⟨-, hcounters, hassociations⟩ := forall_counters.mp hbounds
  constructor
  · refine List.forall_mem_map.mpr fun e he => List.forall_mem_map.mpr fun a ha => ?_
    have hvalue := hassociations e he a ha
    simp only [LiveAssociation.counters, List.forall_mem_cons] at hvalue
    obtain ⟨-, -, hrxPackets, hrxBytes, -, htxPackets, htxBytes, -⟩ := hvalue
    obtain ⟨hrx, htx⟩ := h.associations e he a ha
    exact ⟨hrx.wrap hrxPackets hrxBytes, htx.wrap htxPackets htxBytes⟩
  · refine List.forall_mem_map.mpr fun e he => ?_
    have hvalue := hcounters e he
    simp only [MockCounters.counters, List.forall_mem_cons] at hvalue
    obtain ⟨-, -, hrxBytes, -, -, hrxPackets, htxBytes, -, -, htxPackets, -⟩ := hvalue
    obtain ⟨hrx, htx⟩ := h.counters e he
    exact ⟨hrx.wrap hrxPackets hrxBytes, htx.wrap htxPackets htxBytes⟩

theorem forall₂_wrap {xs ys : List Int} (h : List.Forall₂ (· ≤ ·) xs ys)
    (hxs : ∀ x ∈ xs, 0 ≤ x ∧ x < 2 ^ 64) (hys : ∀ y ∈ ys, 0 ≤ y ∧ y < 2 ^ 64) :
    List.Forall₂ (· ≤ ·) (xs.map UInt64.ofInt) (ys.map UInt64.ofInt) := by
  induction h with
  | nil => exact .nil
  | @cons x y xs ys hxy _ ih =>
    obtain ⟨hx, hxs⟩ := List.forall_mem_cons.mp hxs
    obtain ⟨hy, hys⟩ := List.forall_mem_cons.mp hys
    refine .cons ?_ (ih hxs hys)
    have hvx : ((UInt64.ofInt x).toNat : Int) = x := MockMemory.toNat_ofInt hx.1 hx.2
    have hvy : ((UInt64.ofInt y).toNat : Int) = y := MockMemory.toNat_ofInt hy.1 hy.2
    rw [UInt64.le_iff_toNat_le]
    omega

theorem exact_of_run {u : Live UInt64} (h : run OWLSclient.step (OWLSclient.start d) es = some u)
    (hfits : Always OWLSclient.step Live.Fits (OWLSclient.start d) es) :
    ∃ t, run OWLSclient.step (OWLSclient.start d) es = some t ∧ u = t.wrap ∧ t.Balanced ∧
      ∀ x ∈ t.counters, 0 ≤ x ∧ x < 2 ^ 64 := by
  rw [start_wrap, run_wrap, Option.map_eq_some_iff] at h
  obtain ⟨t, ht, rfl⟩ := h
  have hcounted := counted_run ht
  exact ⟨t, ht, rfl, hcounted.balanced, fun x hx => ⟨(hcounted.bounds x hx).1, hfits.here ht x hx⟩⟩

theorem run_isSome (c : Live Int) (es : List OWLSclient.Call) :
    (run OWLSclient.step c.wrap es).isSome := by
  rw [run_wrap, Option.isSome_map]
  induction es generalizing c with
  | nil => rfl
  | cons e es ih =>
    rw [run_cons]
    cases e with
    | update source =>
      obtain ⟨t, source', ht, -⟩ := returns_update c source
      rw [OWLSclient.step, ht]
      exact ih t
    | reset => exact ih _

theorem fits_of_length (h : es.length * 2800000 < 2 ^ 64) :
    Always OWLSclient.step Live.Fits (OWLSclient.start d) es := by
  intro p hp t ht x hx
  have hle := ((counted_run ht).bounds x hx).2
  have hlength := hp.length_le
  omega

/-- A run of calls in which no counter overflows. -/
theorem counters_of_run (d : Device) (es : List OWLSclient.Call)
    (hfits : Always OWLSclient.step Live.Fits (OWLSclient.start d) es) :
    Always OWLSclient.step Live.Balanced (OWLSclient.start d : Live UInt64) es ∧
      (∀ p q, p ++ q <+: es → (∀ e ∈ q, ∃ source, e = .update source) →
        ∀ s t : Live UInt64, run OWLSclient.step (OWLSclient.start d) p = some s →
          run OWLSclient.step (OWLSclient.start d) (p ++ q) = some t →
          List.Forall₂ (· ≤ ·) s.counters t.counters) ∧
      ∀ p, p ++ [.reset] <+: es → ∀ t : Live UInt64,
        run OWLSclient.step (OWLSclient.start d) (p ++ [.reset]) = some t →
        ∀ x ∈ t.counters, x = 0 := by
  have hinitial {p : List OWLSclient.Call} (hp : p <+: es) :
      Always OWLSclient.step Live.Fits (OWLSclient.start d) p :=
    fun q hq => hfits q (hq.trans hp)
  refine ⟨?_, ?_, ?_⟩
  · intro p hp u hu
    obtain ⟨t, -, rfl, hbalanced, hbounds⟩ := exact_of_run hu (hinitial hp)
    exact balanced_wrap hbalanced hbounds
  · intro p q hpq hupdates u v hu hv
    obtain ⟨s, hs, rfl, -, hsbounds⟩ :=
      exact_of_run hu (hinitial ((List.prefix_append p q).trans hpq))
    obtain ⟨t, ht, rfl, -, htbounds⟩ := exact_of_run hv (hinitial hpq)
    rw [run_append, hs] at ht
    rw [counters_wrap, counters_wrap]
    exact forall₂_wrap (grows_run hupdates ht) hsbounds htbounds
  · intro p _ u hu
    obtain ⟨t, -, hreset⟩ := run_snoc_inv hu
    rw [← Option.some.inj hreset]
    exact reset_counters t

/-- One device with an element of each kind. -/
def oneOfEach : Device where
  serialNumber := "a4b0c2d4e6f8"
  allAssociations :=
    AList.singleton ⟨.upstream, "lab", .band2g⟩ [{ ackSignalAvg := -65, rssi := -50 }]
  allRadios := AList.singleton .band2g {}
  allCounters := [.upstream]

def twoUpdates : List OWLSclient.Call :=
  [.update OWLSclient.zeros, .update OWLSclient.zeros, .reset]

theorem counters_of_run_one :
    Always OWLSclient.step Live.Balanced (OWLSclient.start oneOfEach : Live UInt64) twoUpdates ∧
      (∀ p q, p ++ q <+: twoUpdates → (∀ e ∈ q, ∃ source, e = .update source) →
        ∀ s t : Live UInt64, run OWLSclient.step (OWLSclient.start oneOfEach) p = some s →
          run OWLSclient.step (OWLSclient.start oneOfEach) (p ++ q) = some t →
          List.Forall₂ (· ≤ ·) s.counters t.counters) ∧
      ∀ p, p ++ [.reset] <+: twoUpdates → ∀ t : Live UInt64,
        run OWLSclient.step (OWLSclient.start oneOfEach) (p ++ [.reset]) = some t →
        ∀ x ∈ t.counters, x = 0 :=
  counters_of_run oneOfEach twoUpdates (fits_of_length (by decide))

end Owls
