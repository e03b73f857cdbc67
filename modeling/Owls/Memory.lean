import Mathlib.Algebra.Order.BigOperators.Group.List
import Owls.DeviceState
import Owls.Serials

/-!
# The free memory of a device

`MockMemory::next` takes memory away for every LAN client and every station, as many as the bounds
of the definition allow.
-/

open Machine Draw

namespace Owls

structure MockMemory where
  total : UInt64 := 973131776
  free : UInt64 := 0
  cached : UInt64 := 0
  buffered : UInt64 := 0
  size : UInt64

namespace MockMemory

open OWLSutils (localRandom)

def next (m : MockMemory) : Drawing MockMemory := do
  let size := if m.size = 0 then 7 else m.size
  let used ← localRandom 25000 75000
  let free := m.total - size * .ofInt (128000 + used) - 150000000
  let cached ← localRandom 25000000 100000000
  let buffered ← localRandom 25000000 100000000
  return { m with size, free, cached := .ofInt cached, buffered := .ofInt buffered }

/-- Whatever is drawn, `next` computes `free` without wrap-around. -/
def Exact (m : MockMemory) : Prop := ∀ r used t m' t', localRandom 25000 75000 r = .ok (used, t) →
  m.next r = .ok (m', t') →
    (m'.free.toNat : Int) = m.total.toNat - m'.size.toNat * (128000 + used) - 150000000

/-! ## One call -/

variable {m : MockMemory} {used : Int}

def sizeNext (m : MockMemory) : UInt64 := if m.size = 0 then 7 else m.size

theorem localRandom_mem {r t : Entropy} (h : localRandom 25000 75000 r = .ok (used, t)) :
    25000 ≤ used ∧ used ≤ 75000 := by
  have hmod := Nat.mod_lt r.gen.head.toNat (by decide : 0 < 50001)
  have hused : used = 25000 + (r.gen.head.toNat % 50001 : Nat) := by
    cases h
    rfl
  omega

theorem next_eq {r t : Entropy} (h : localRandom 25000 75000 r = .ok (used, t)) :
    ∃ cached buffered t', m.next r = .ok ({ m with
      size := m.sizeNext
      free := m.total - m.sizeNext * .ofInt (128000 + used) - 150000000
      cached := cached
      buffered := buffered }, t') := by
  obtain ⟨cached, t₁, hcached⟩ : ∃ cached t₁,
      localRandom 25000000 100000000 t = .ok (cached, t₁) := ⟨_, _, rfl⟩
  obtain ⟨buffered, t₂, hbuffered⟩ : ∃ buffered t₂,
      localRandom 25000000 100000000 t₁ = .ok (buffered, t₂) := ⟨_, _, rfl⟩
  refine ⟨.ofInt cached, .ofInt buffered, t₂, ?_⟩
  unfold next
  rw [bind_ok h, bind_ok hcached, bind_ok hbuffered]
  rfl

theorem exact_iff : m.Exact ↔ ∀ r used t, localRandom 25000 75000 r = .ok (used, t) →
    ((m.total - m.sizeNext * .ofInt (128000 + used) - 150000000).toNat : Int) =
      m.total.toNat - m.sizeNext.toNat * (128000 + used) - 150000000 := by
  constructor
  · intro h r used t hused
    obtain ⟨cached, buffered, t', hnext⟩ := next_eq (m := m) hused
    exact h r used t _ t' hused hnext
  · intro h r used t m' t' hused hm'
    obtain ⟨cached, buffered, t'', hnext⟩ := next_eq (m := m) hused
    cases hm'.symm.trans hnext
    exact h r used t hused

theorem toNat_ofInt {x : Int} (h : 0 ≤ x) (hlt : x < 2 ^ 64) : ((UInt64.ofInt x).toNat : Int) = x := by
  have hmod : x % 2 ^ 64 = x := Int.emod_eq_of_lt h hlt
  rw [UInt64.ofInt, hmod, UInt64.toNat_ofNat']
  omega

theorem free_eq {size : UInt64} (hsize : size.toNat ≤ 4054) (hused : 25000 ≤ used ∧ used ≤ 75000) :
    ((973131776 - size * .ofInt (128000 + used) - 150000000 : UInt64).toNat : Int) =
      973131776 - size.toNat * (128000 + used) - 150000000 := by
  have hfactor := toNat_ofInt (x := 128000 + used) (by omega) (by omega)
  generalize UInt64.ofInt (128000 + used) = factor at hfactor ⊢
  have hproduct : size.toNat * factor.toNat ≤ 4054 * 203000 :=
    Nat.mul_le_mul hsize (by omega)
  have hmul : (size * factor).toNat = size.toNat * factor.toNat :=
    Word.toNat_mul_of_lt (Nat.lt_of_le_of_lt hproduct (by decide))
  have htotal : (973131776 : UInt64).toNat = 973131776 := rfl
  have hkept : (150000000 : UInt64).toNat = 150000000 := rfl
  have hsub : (973131776 - size * factor - 150000000 : UInt64).toNat =
      973131776 - size.toNat * factor.toNat - 150000000 := by
    rw [Word.toNat_sub_sub (by rw [hmul, htotal, hkept]; omega), hmul, htotal, hkept]
  rw [hsub, ← hfactor, ← Int.natCast_mul]
  omega

theorem exact_iff_size (htotal : m.total = 973131776) : m.Exact ↔ m.size.toNat ≤ 4054 := by
  rw [exact_iff, htotal]
  have hnext : m.sizeNext.toNat ≤ 4054 ↔ m.size.toNat ≤ 4054 := by
    unfold sizeNext
    split
    · rename_i hzero
      exact iff_of_true (by decide) (by rw [hzero]; decide)
    · rfl
  rw [← hnext]
  have hcast : ((973131776 : UInt64).toNat : Int) = 973131776 := rfl
  constructor
  · intro h
    -- The largest draw leaves the least.
    have hlargest := h ⟨fun _ => 0, fun _ => 50000, fun _ => 0⟩ 75000 _ rfl
    rw [hcast] at hlargest
    omega
  · intro hsize r used t hused
    exact free_eq hsize (localRandom_mem hused)

end MockMemory

namespace OWLSclient

variable {d : SimulationDetails} {c : Device} {n : UInt64} {serial : String}
  {locations : List InterfaceLocation}

/-! ## Sizes -/

def associationCount (c : Device) : Nat := (c.allAssociations.entries.map fun a => a.2.length).sum

theorem countAssociations_toNat (c : Device) :
    (countAssociations c).toNat = associationCount c % 2 ^ 64 := by
  have hfold (l : List Associations) (total : UInt64) :
      (l.foldl (fun total a => total + .ofNat a.2.length) total).toNat =
        (total.toNat + (l.map fun a => a.2.length).sum) % 2 ^ 64 := by
    induction l generalizing total with
    | nil => exact (Nat.mod_eq_of_lt total.toNat_lt).symm
    | cons a l ih =>
      rw [List.foldl_cons, ih, UInt64.toNat_add, UInt64.toNat_ofNat', List.map_cons, List.sum_cons]
      rw [Nat.add_mod_mod, Nat.mod_add_mod, Nat.add_assoc]
  have hcount := hfold c.allAssociations.entries 0
  rw [UInt64.toNat_zero, Nat.zero_add] at hcount
  exact hcount

theorem setSizes_memory (c : Device) : (setSizes c).memory.toNat =
    (c.allLanClients.length + associationCount c) % 2 ^ 64 := by
  change (UInt64.ofNat c.allLanClients.length + countAssociations c).toNat = _
  rw [UInt64.toNat_add, UInt64.toNat_ofNat', countAssociations_toNat, ← Nat.add_mod]

/-- The largest size that the bounds of a definition allow. -/
def largestSize (d : SimulationDetails) : Nat :=
  (d.maxClients.toNat - 1) + 3 * (d.maxAssociations.toNat - 1)

/-- The associations between the loops: on these locations at most, and below the bound. -/
structure Below (d : SimulationDetails) (locations : List InterfaceLocation) (c : Device) :
    Prop where
  present : ∀ l ∈ c.allAssociations, l ∈ locations
  sized : ∀ l as, c.allAssociations.lookup l = some as →
    as.length ≤ d.maxAssociations.toNat - 1

theorem Below.insert {l : InterfaceLocation} {as : List MockAssociation} (h : Below d locations c)
    (has : as.length ≤ d.maxAssociations.toNat - 1) : Below d (locations ++ [l])
      { c with allAssociations := c.allAssociations.insert l as } where
  present k hk := by
    rw [List.mem_append, List.mem_singleton]
    exact ((AList.mem_insert _).mp hk).symm.imp_left (h.present k)
  sized k bs hk := by
    by_cases hkl : k = l
    · rw [hkl, AList.lookup_insert] at hk
      cases hk
      exact has
    · rw [AList.lookup_insert_ne hkl] at hk
      exact h.sized k bs hk

theorem Below.count_le (h : Below d locations c) :
    associationCount c ≤ locations.length * (d.maxAssociations.toNat - 1) := by
  have hkeys : c.allAssociations.keys.length ≤ locations.length :=
    (List.subperm_of_subset c.allAssociations.keys_nodup fun l hl =>
      h.present l (AList.mem_keys.mpr hl)).length_le
  have hentries : ∀ x ∈ c.allAssociations.entries.map fun a => a.2.length,
      x ≤ d.maxAssociations.toNat - 1 := by
    intro x hx
    obtain ⟨⟨l, as⟩, hmem, rfl⟩ := List.mem_map.mp hx
    exact h.sized l as (AList.mem_lookup_iff.mpr hmem)
  have hsum := List.sum_le_card_nsmul _ _ hentries
  rw [List.length_map, nsmul_eq_mul, Nat.cast_id] at hsum
  have hlength : c.allAssociations.entries.length = c.allAssociations.keys.length :=
    (List.length_map _).symm
  exact hsum.trans (Nat.mul_le_mul_right _ (hlength ▸ hkeys))

theorem yields_random {min max : UInt64} (h : min ≤ max) : Yields (MicroService.random min max)
    (fun n => min ≤ n ∧ n < max) fun _ => True := by
  rcases UInt64.lt_or_eq_of_le h with hlt | rfl
  · exact (returns_random hlt).yields
  · exact fun r => .inr ⟨_, stops_random r, trivial⟩

theorem fills_below (hd : d.minAssociations ≤ d.maxAssociations) :
    Fills d (fun _ => True) fun locations _ c => Below d locations c where
  serial _ := yields_true
  index hc := ⟨hc.present, hc.sized⟩
  create {locations roles c} hc l bssid := by
    unfold createAssociations
    refine (yields_random hd).bind fun n hn => ?_
    refine ((returns_association bssid).times n.toNat).yields.map fun as has => ?_
    have hlt := UInt64.lt_iff_toNat_lt.mp hn.2
    have hsized : as.length ≤ d.maxAssociations.toNat - 1 := by
      rw [has]
      omega
    have hnew := hc.insert (l := l) hsized
    exact ⟨hnew.present, hnew.sized⟩
  role hc role := ⟨hc.present, hc.sized⟩

theorem yields_memory (hassociations : d.minAssociations ≤ d.maxAssociations)
    (hclients : d.minClients ≤ d.maxClients) (c : Device) :
    Yields (updateConfiguration d defaultConfiguration c)
      (fun c' => c'.memory.toNat ≤ largestSize d) fun _ => True := by
  unfold updateConfiguration
  refine ((fills_below hassociations).onInterfaces ⟨by simp, by simp⟩ _).bind fun c hc => ?_
  refine Yields.bind (P := fun c' => c'.memory.toNat ≤ largestSize d) ?_ fun c hc => ?_
  · unfold createLanClients
    refine (yields_random hclients).bind fun n hn => ?_
    refine (returns_lanClient.times n.toNat).yields.map fun cs hcs => ?_
    have hlt := UInt64.lt_iff_toNat_lt.mp hn.2
    have hcount := hc.count_le
    have hlocations : defaultConfiguration.locations.length = 3 := by decide
    rw [hlocations] at hcount
    rw [setSizes_memory]
    refine (Nat.mod_le _ _).trans ?_
    change cs.length + associationCount c ≤ _
    rw [hcs, largestSize]
    omega
  · refine Yields.foldlM (fun _ c' => c'.memory.toNat ≤ largestSize d) ?_ _ [] c hc
    intro done x c' hc'
    refine (yields_updateRadio x).mono ?_
    rintro _ ⟨radio, -, -, rfl⟩
    exact hc'

/-! ## The largest size is drawn -/

open MicroService OWLSutils

theorem reaches_randomEngine (n : UInt64) : Reaches randomEngine (· = n) :=
  ⟨n, rfl, fun t => ⟨{ t with engine := Stream'.cons n t.engine }, rfl⟩⟩

theorem reaches_localRandom (a b : Int) : Reaches (localRandom a b) fun _ => True :=
  ⟨min a b + ((0 : UInt64).toNat % (max a b - min a b + 1).toNat : Nat), trivial,
    fun t => ⟨{ t with gen := Stream'.cons 0 t.gen }, rfl⟩⟩

theorem reaches_randomBelow {ceiling : UInt64} (h : ceiling ≠ 0) :
    Reaches (randomBelow ceiling) fun _ => True := by
  refine (reaches_randomEngine 0).bind fun n _ => ?_
  rw [remainder, Word.mod?_of_ne_zero h]
  exact reaches_pure trivial

theorem reaches_random {min max : UInt64} (hmin : min ≤ n) (hmax : n < max) :
    Reaches (random min max) (· = n) := by
  rw [UInt64.le_iff_toNat_le] at hmin
  rw [UInt64.lt_iff_toNat_lt] at hmax
  have hrange : (max - min).toNat = max.toNat - min.toNat :=
    UInt64.toNat_sub_of_le _ _ (UInt64.le_iff_toNat_le.mpr (by omega))
  have hoffset : (n - min).toNat = n.toNat - min.toNat :=
    UInt64.toNat_sub_of_le _ _ (UInt64.le_iff_toNat_le.mpr hmin)
  have hne : max - min ≠ 0 := by
    rw [Word.ne_zero_iff, hrange]
    omega
  have hmod : (n - min) % (max - min) = n - min := by
    rw [← UInt64.toNat_inj, UInt64.toNat_mod, hrange, hoffset, Nat.mod_eq_of_lt (by omega)]
  refine (reaches_randomEngine (n - min)).bind ?_
  rintro _ rfl
  rw [remainder, Word.mod?_of_ne_zero hne, hmod]
  exact reaches_pure (UInt64.sub_add_cancel n min)

theorem reaches_randomMAC : Reaches randomMAC fun _ => True :=
  ((reaches_randomBelow (by decide)).times 6).map fun _ _ => trivial

theorem reaches_randomIPv4 : Reaches randomIPv4 fun _ => True :=
  ((reaches_randomBelow (by decide)).times 4).map fun _ _ => trivial

theorem reaches_randomIPv6 : Reaches randomIPv6 fun _ => True :=
  ((reaches_randomBelow (by decide)).times 8).map fun _ _ => trivial

theorem reaches_lanClient : Reaches lanClient fun _ => True :=
  reaches_randomMAC.bind fun _ _ => reaches_randomIPv4.bind fun _ _ =>
    reaches_randomIPv6.map fun _ _ => trivial

theorem reaches_association (bssid : String) : Reaches (association bssid) fun _ => True := by
  have hnew : Reaches newAssociation fun _ => True :=
    (reaches_localRandom _ _).bind fun _ _ => (reaches_localRandom _ _).map fun _ _ => trivial
  exact hnew.bind fun _ _ => reaches_randomMAC.bind fun _ _ => (reaches_localRandom _ _).bind
    fun _ _ => reaches_randomIPv4.bind fun _ _ => reaches_randomIPv6.bind fun _ _ =>
      (reaches_localRandom _ _).map fun _ _ => trivial

/-- As many associations on each of the locations as can be drawn. -/
structure Crowded (d : SimulationDetails) (serial : String) (locations : List InterfaceLocation)
    (c : Device) : Prop where
  serialNumber : c.serialNumber = serial
  present : ∀ l, l ∈ c.allAssociations ↔ l ∈ locations
  count : associationCount c = locations.length * (d.maxAssociations.toNat - 1)

theorem Crowded.insert {l : InterfaceLocation} {as : List MockAssociation}
    (h : Crowded d serial locations c) (hl : l ∉ locations)
    (has : as.length = d.maxAssociations.toNat - 1) : Crowded d serial (locations ++ [l])
      { c with allAssociations := c.allAssociations.insert l as } where
  serialNumber := h.serialNumber
  present k := by
    rw [AList.mem_insert, List.mem_append, List.mem_singleton, h.present, or_comm]
  count := by
    have hnew : l ∉ c.allAssociations := fun hmem => hl ((h.present l).mp hmem)
    have hcount := h.count
    unfold associationCount at hcount ⊢
    rw [AList.entries_insert_of_notMem hnew, List.map_cons, List.sum_cons, hcount, has,
      List.length_append, List.length_singleton, Nat.add_mul, Nat.one_mul, Nat.add_comm]

theorem reaches_updateBand {role : ApInterfaceTypes} {ssid : Ssid} {band : String}
    {b : RadioBands} (hd : d.minAssociations < d.maxAssociations)
    (hn : Utils.serialNumberToInt serial = .ok n) (hband : findBand band = some b)
    (hnew : (⟨role, ssid.name, b⟩ : InterfaceLocation) ∉ locations)
    (h : Crowded d serial locations c) :
    Reaches (updateBand d role ssid c band)
      (Crowded d serial (locations ++ [⟨role, ssid.name, b⟩])) := by
  unfold updateBand
  rw [h.serialNumber]
  refine (reaches_ofExcept hn).bind fun _ _ => ?_
  simp only [hband]
  unfold createAssociations
  rw [UInt64.lt_iff_toNat_lt] at hd
  have hlast : (d.maxAssociations - 1).toNat = d.maxAssociations.toNat - 1 :=
    UInt64.toNat_sub_of_le _ _ (UInt64.le_iff_toNat_le.mpr (by change 1 ≤ _; omega))
  refine (reaches_random (n := d.maxAssociations - 1) ?_ ?_).bind ?_
  · rw [UInt64.le_iff_toNat_le, hlast]
    omega
  · rw [UInt64.lt_iff_toNat_lt, hlast]
    omega
  · rintro _ rfl
    refine ((reaches_association _).times _).map fun as has => ?_
    have hcrowded := Crowded.insert h hnew (has.trans hlast)
    exact ⟨rfl, hcrowded.present, hcrowded.count⟩

theorem Crowded.role (h : Crowded d serial locations c) (role : ApInterfaceTypes) :
    Crowded d serial locations { c with allCounters := c.allCounters.insert role } :=
  ⟨h.serialNumber, h.present, h.count⟩

theorem reaches_interfaces (hd : d.minAssociations < d.maxAssociations)
    (hn : Utils.serialNumberToInt serial = .ok n) (h : Crowded d serial [] c) :
    Reaches (defaultConfiguration.interfaces.foldlM (updateInterface d) c)
      (Crowded d serial defaultConfiguration.locations) := by
  have hdown : ("downstream" : String) ≠ "upstream" := by decide
  simp only [defaultConfiguration, List.foldlM_cons, List.foldlM_nil, updateInterface,
    Option.bind_some, findInterfaceRole, if_true, if_neg hdown, bind_pure]
  refine Reaches.bind (P := Crowded d serial [⟨.upstream, "OpenWifi-test5", .band5g⟩]) ?_
    fun c hc => ?_
  · exact (reaches_updateBand hd hn rfl (by decide) h).map fun c hc => Crowded.role hc _
  · refine Reaches.map (P := Crowded d serial defaultConfiguration.locations) ?_
      fun c hc => Crowded.role hc _
    refine (reaches_updateBand hd hn rfl (by decide) hc).bind fun c hc => ?_
    exact reaches_updateBand hd hn rfl (by decide) hc

theorem reaches_createLanClients (hclients : d.minClients < d.maxClients) (hmin : d.minClients ≤ 4)
    (hmax : d.maxAssociations ≤ 16) (hlarge : 4054 < largestSize d)
    (h : Crowded d serial defaultConfiguration.locations c) :
    Reaches (createLanClients c d.minClients d.maxClients) (4054 < ·.memory.toNat) := by
  rw [UInt64.lt_iff_toNat_lt] at hclients
  rw [UInt64.le_iff_toNat_le] at hmin hmax
  change _ ≤ 4 at hmin
  change _ ≤ 16 at hmax
  unfold largestSize at hlarge
  obtain ⟨drawn, hlow, hhigh, hfew, hmany⟩ : ∃ drawn : Nat, d.minClients.toNat ≤ drawn ∧
      drawn < d.maxClients.toNat ∧ drawn ≤ 4055 ∧
      4054 < drawn + 3 * (d.maxAssociations.toNat - 1) := by
    refine ⟨min (d.maxClients.toNat - 1) 4055, ?_⟩
    omega
  have hdrawn : (UInt64.ofNat drawn).toNat = drawn :=
    UInt64.toNat_ofNat_of_lt' (Nat.lt_of_le_of_lt hfew (by decide))
  unfold createLanClients
  refine (reaches_random (n := .ofNat drawn) ?_ ?_).bind ?_
  · rw [UInt64.le_iff_toNat_le, hdrawn]
    omega
  · rw [UInt64.lt_iff_toNat_lt, hdrawn]
    omega
  · rintro _ rfl
    refine (reaches_lanClient.times _).map fun cs hcs => ?_
    have hlocations : defaultConfiguration.locations.length = 3 := by decide
    have hcount := h.count
    rw [hlocations] at hcount
    rw [setSizes_memory]
    change 4054 < (cs.length + associationCount c) % 2 ^ 64
    rw [hcs, hdrawn, hcount, Nat.mod_eq_of_lt (by omega)]
    exact hmany

theorem mayReturn_new (hd : Apart d) (hnumbered : Numbered serial) (hmin : d.minClients ≤ 4)
    (hmax : d.maxAssociations ≤ 16) (hlarge : 4054 < largestSize d) :
    MayReturn (new d serial) (4054 < ·.memory.toNat) := by
  obtain ⟨n, hn⟩ := hnumbered
  have hstart : Crowded d serial [] { serialNumber := serial } :=
    ⟨rfl, fun l => by simp, by simp [associationCount]⟩
  unfold new updateConfiguration
  refine (reaches_interfaces hd.1 hn hstart).mayReturn fun c hc => ?_
  refine (reaches_createLanClients hd.2 hmin hmax hlarge hc).mayReturn fun c hc => ?_
  have hradios : Returns (defaultConfiguration.radios.zipIdx.foldlM updateRadio c)
      (4054 < ·.memory.toNat) :=
    returns_radios (P := (4054 < ·.memory.toNat)) (Q := (4054 < ·.memory.toNat))
      (fun _ _ hc => hc) (fun _ _ hc => hc) hc
  exact hradios.mayReturn zeros

theorem apart_of_new {r : Entropy} {p : Device × Entropy} (hvalid : validateSimulation d = true)
    (h : new d serial r = .ok p) : Apart d ∧ Numbered serial := by
  have hbounds := ((validateSimulation_iff d).mp hvalid).2
  obtain ⟨hassociations, hclients, hn⟩ := (new_ok_iff d serial r).mp ⟨p.1, p.2, h⟩
  exact ⟨⟨UInt64.lt_of_le_of_ne hbounds.associations hassociations,
    UInt64.lt_of_le_of_ne hbounds.clients hclients⟩, hn⟩

end OWLSclient

/-! ## Runs -/

namespace FreeMemory

open OWLSclient

structure Simulated where
  device : Device
  memory : MockMemory

inductive Event where
  | construct (deviceNumber : UInt64) (r : Entropy)
  | factory (r : Entropy)
  | next (r : Entropy)

/-- `Memory_` has the size of the tables. -/
def configured (m : MockMemory) (out : Except Failure (Device × Entropy)) :
    Option (Option Simulated) :=
  out.toOption.map fun p => some { device := p.1, memory := { m with size := p.1.memory } }

variable (d : SimulationDetails)

/-- The state is `none` until the client is built. -/
def step : Option Simulated → Event → Option (Option Simulated)
  | none, .construct deviceNumber r =>
    if deviceNumber < d.devices then
      configured { size := 1 } (new d (SimulationRunner.serialNumber d.macPrefix deviceNumber) r)
    else none
  | some s, .factory r =>
    configured s.memory (updateConfiguration d defaultConfiguration s.device r)
  | some s, .next r => (s.memory.next r).toOption.map fun p =>
      some { device := { s.device with memory := p.1.size }, memory := p.1 }
  | _, _ => none

/-- What is reported as free is a part of the total, and comes without wrap-around. -/
def FreeFits (s : Option Simulated) : Prop :=
  ∀ c, s = some c → c.memory.free ≤ c.memory.total ∧ c.memory.Exact

/-- The definition builds a client at all. -/
def Builds : Prop := Apart d ∧ ∃ deviceNumber < d.devices,
  Numbered (SimulationRunner.serialNumber d.macPrefix deviceNumber)

structure Small (m : MockMemory) : Prop where
  total : m.total = 973131776
  free : m.free ≤ m.total
  size : m.size.toNat ≤ 4054

variable {d} {s u : Option Simulated} {e : Event} {m : MockMemory}

theorem Small.fits (h : Small m) : m.free ≤ m.total ∧ m.Exact :=
  ⟨h.free, (MockMemory.exact_iff_size h.total).mpr h.size⟩

theorem Small.next {r t : Entropy} {m' : MockMemory} (h : Small m) (hm' : m.next r = .ok (m', t)) :
    Small m' := by
  obtain ⟨used, t', hused⟩ : ∃ used t',
      OWLSutils.localRandom 25000 75000 r = .ok (used, t') := ⟨_, _, rfl⟩
  have hfree := h.fits.2 r used t' m' t hused hm'
  have hrange := MockMemory.localRandom_mem hused
  obtain ⟨cached, buffered, t'', hnext⟩ := MockMemory.next_eq (m := m) hused
  cases hm'.symm.trans hnext
  have htotal := congrArg UInt64.toNat h.total
  change _ = 973131776 at htotal
  have hproduct : 0 ≤ (m.sizeNext.toNat : Int) * (128000 + used) :=
    Int.mul_nonneg (Int.natCast_nonneg _) (by omega)
  refine ⟨h.total, UInt64.le_iff_toNat_le.mpr ?_, ?_⟩
  · change _ = (m.total.toNat : Int) - m.sizeNext.toNat * (128000 + used) - 150000000 at hfree
    change UInt64.toNat _ ≤ m.total.toNat
    omega
  · change m.sizeNext.toNat ≤ 4054
    unfold MockMemory.sizeNext
    split
    · decide
    · exact h.size

theorem configured_eq_some {out : Except Failure (Device × Entropy)} :
    configured m out = some u ↔ ∃ c t, out = .ok (c, t) ∧
      u = some { device := c, memory := { m with size := c.memory } } :=
  map_toOption_eq_some

/-- What holds of every client as long as the bounds are small enough. -/
def Bounded (d : SimulationDetails) (s : Option Simulated) : Prop :=
  ∀ c, s = some c → largestSize d ≤ 4054 ∧ Small c.memory

theorem bounded_some {x : Simulated} (h : largestSize d ≤ 4054 ∧ Small x.memory) :
    Bounded d (some x) := by
  intro c hc
  cases hc
  exact h

theorem Small.configured {c : Device} (h : m.total = 973131776 ∧ m.free ≤ m.total)
    (hc : c.memory.toNat ≤ largestSize d) (hd : largestSize d ≤ 4054) :
    Small { m with size := c.memory } :=
  ⟨h.1, h.2, hc.trans hd⟩

theorem bounded_step (hvalid : validateSimulation d = true) (hd : Builds d → largestSize d ≤ 4054)
    (h : Bounded d s) (hu : step d s e = some u) : Bounded d u := by
  have hbounds := ((validateSimulation_iff d).mp hvalid).2
  have hnew (c : Device) := yields_memory hbounds.associations hbounds.clients c
  cases s with
  | none =>
    cases e with
    | construct deviceNumber r =>
      simp only [step] at hu
      split at hu
      · rename_i hdevice
        obtain ⟨c, t, hc, rfl⟩ := configured_eq_some.mp hu
        obtain ⟨hapart, hnumbered⟩ := apart_of_new hvalid hc
        have hlargest := hd ⟨hapart, deviceNumber, hdevice, hnumbered⟩
        exact bounded_some
          ⟨hlargest, .configured ⟨rfl, by decide⟩ ((hnew _).of_ok hc) hlargest⟩
      · cases hu
    | factory r => cases hu
    | next r => cases hu
  | some s =>
    obtain ⟨hlargest, hsmall⟩ := h s rfl
    cases e with
    | construct deviceNumber r => cases hu
    | factory r =>
      obtain ⟨c, t, hc, rfl⟩ := configured_eq_some.mp hu
      exact bounded_some
        ⟨hlargest, .configured ⟨hsmall.total, hsmall.free⟩ ((hnew _).of_ok hc) hlargest⟩
    | next r =>
      rw [step, map_toOption_eq_some] at hu
      obtain ⟨m, t, hm, rfl⟩ := hu
      exact bounded_some ⟨hlargest, hsmall.next hm⟩

theorem overflows (hvalid : validateSimulation d = true) (hd : Builds d)
    (hlarge : 4054 < largestSize d) : ∃ e, ¬ Always (step d) FreeFits none [e] := by
  obtain ⟨hapart, deviceNumber, hdevice, hnumbered⟩ := hd
  have hfields := ((validateSimulation_iff d).mp hvalid).1
  obtain ⟨r, c, t, hc, hmemory⟩ :=
    mayReturn_new hapart hnumbered hfields.minClients hfields.maxAssociations hlarge
  refine ⟨.construct deviceNumber r, fun h => ?_⟩
  have hstep : step d none (.construct deviceNumber r) =
      some (some { device := c, memory := { size := c.memory } }) := by
    simp only [step, if_pos hdevice]
    exact configured_eq_some.mpr ⟨c, t, hc, rfl⟩
  have hfits := h _ List.prefix_rfl _ (by rw [run_cons, hstep]; rfl) _ rfl
  have hsize := (MockMemory.exact_iff_size rfl).mp hfits.2
  change c.memory.toNat ≤ 4054 at hsize
  omega

/-- The free memory comes without wrap-around in every run exactly when no client is built, or the
largest size that the bounds allow is small enough. -/
theorem free_fits_iff (d : SimulationDetails) (hvalid : validateSimulation d = true) :
    (∀ es, Always (step d) FreeFits none es) ↔ (Builds d → largestSize d ≤ 4054) := by
  constructor
  · intro h hd
    by_contra hlarge
    obtain ⟨e, he⟩ := overflows hvalid hd (by omega)
    exact he (h [e])
  · intro hd es
    have hbounded : Always (step d) (Bounded d) none es :=
      always_of_step (fun _ hc => by cases hc) (fun _ _ _ => bounded_step hvalid hd) es
    intro p hp t ht c hc
    exact (hbounded p hp t ht c hc).2.fits

theorem sample_free_fits :
    Always (step sampleDetails) FreeFits none [.construct 0 zeros, .next zeros, .factory zeros] :=
  (free_fits_iff sampleDetails (by decide)).mpr (fun _ => by decide) _

def manyClients : SimulationDetails := { sampleDetails with maxClients := 10000 }

/-- Nothing stops ten thousand LAN clients, and a device has no memory for them. -/
theorem many_clients_wrap_around :
    ¬ ∀ (d : SimulationDetails) (es : List Event), validateSimulation d = true →
      Always (step d) FreeFits none es := by
  intro h
  have hbuilds : Builds manyClients :=
    ⟨⟨by decide, by decide⟩, 0, by decide, _, rfl⟩
  obtain ⟨e, he⟩ := overflows (by decide) hbuilds (by decide)
  exact he (h manyClients [e] (by decide))

end FreeMemory

end Owls
