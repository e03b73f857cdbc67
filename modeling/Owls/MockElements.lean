import Mathlib.Data.List.AList
import Mathlib.Data.Stream.Defs
import Owls.Base.Draw
import Owls.Base.Word

/-!
# `MockElements` and `OWLSutils`

The elements that a simulated device shows, and the random values that they are made of.
-/

open Draw

namespace Owls

/-! ## Random values -/

inductive Failure where
  | divisionByZero
  | invalidArgument (what : String)
  | outOfRange (what : String)
deriving DecidableEq

/-- The generators: `RandomEngine_` of the service, the engine of `local_random`, and
`std::rand`. -/
structure Entropy where
  engine : Stream' UInt64
  gen : Stream' UInt64
  rand : Stream' UInt64

abbrev Drawing := StateT Entropy (Except Failure)

namespace MicroService

def randomEngine : Drawing UInt64 := fun r =>
  .ok (r.engine.head, { r with engine := r.engine.tail })

def remainder (n ceiling : UInt64) : Drawing UInt64 :=
  match Word.mod? n ceiling with
  | none => throw .divisionByZero
  | some m => pure m

/-- `Random(ceiling)`. -/
def randomBelow (ceiling : UInt64) : Drawing UInt64 := do
  let n ← randomEngine
  remainder n ceiling

/-- `Random(min, max)`. -/
def random (min max : UInt64) : Drawing UInt64 := do
  let n ← randomEngine
  return (← remainder n (max - min)) + min

end MicroService

open MicroService

namespace OWLSutils

/-- `%0<width>x`. -/
def hex (width : Nat) (n : UInt64) : String :=
  .ofList ((Nat.toDigits 16 n.toNat).leftpad width '0')

def randomMAC : Drawing String := do
  return ":".intercalate ((← times 6 (randomBelow 255)).map (hex 2))

def randomIPv4 : Drawing String := do
  return ".".intercalate ((← times 4 (randomBelow 255)).map Word.toDecimal)

def randomIPv6 : Drawing String := do
  return ":".intercalate ((← times 8 (randomBelow 0x0ffff)).map (hex 4))

/-- Any value between the two bounds, whichever is the smaller. -/
def localRandom (a b : Int) : Drawing Int := fun r =>
  let lo := min a b
  let hi := max a b
  .ok (lo + (r.gen.head.toNat % (hi - lo + 1).toNat : Nat), { r with gen := r.gen.tail })

def rand : Drawing UInt64 := fun r => .ok (r.rand.head, { r with rand := r.rand.tail })

end OWLSutils

open OWLSutils

/-! ## Channels -/

inductive RadioBands where
  | band2g | band5g | band6g
deriving DecidableEq

namespace OWLSutils

def channels2G : List UInt64 := [1, 6, 11]

def channels5G : List UInt64 :=
  [36, 38, 40, 42, 44, 46, 48, 50, 52, 54, 56, 58, 60, 62, 64, 66, 68, 96, 100, 102, 104, 106, 108,
   110, 112, 114, 116, 118, 120, 122, 124, 126, 128, 132, 136, 138, 140, 142, 144, 149, 151, 153,
   155, 157, 159, 161]

def channels6G : List UInt64 :=
  [1, 5, 9, 13, 17, 21, 25, 29, 33, 37, 41, 45, 49, 53, 57, 61, 65, 69, 73, 77, 81, 85, 89, 93, 97,
   101, 105, 109, 113, 117, 121, 125, 129, 133, 137, 141, 145, 149, 153, 157, 161, 165, 169, 173,
   177, 181, 185, 189, 193, 197, 201, 205, 209, 213, 221, 225, 229, 233]

/-- `channels[std::rand() % (channels.size() - numChan)]`. -/
def pick (channels : List UInt64) (numChan : Nat) : Drawing UInt64 := do
  let n ← rand
  return channels.getD (n.toNat % (channels.length - numChan)) 0

def findAutoChannel (band : RadioBands) (channelWidth : UInt64) : Drawing UInt64 :=
  let numChan :=
    if channelWidth = 20 then 1
    else if channelWidth = 40 then 2
    else if channelWidth = 80 then 3
    else if channelWidth = 160 then 4
    else if channelWidth = 320 then 5
    else 1
  match band with
  | .band2g => pick channels2G 0
  | .band5g => pick channels5G numChan
  | .band6g => pick channels6G numChan

/-- The channels and the frequencies of a radio that has none yet. -/
def fillinFrequencies (channel : UInt64) (band : RadioBands) (width : UInt64) :
    Except Failure (List UInt64 × List UInt64) :=
  match band with
  | .band2g =>
    if 1 ≤ channel ∧ channel ≤ 11 then
      let frequency := 2401 + (channel - 1) * 5
      if width = 20 then .ok ([channel], [frequency, frequency + 22])
      else if width = 40 then .ok ([channel], [frequency, frequency + 32])
      else if width = 80 then .ok ([channel], [frequency, frequency + 52])
      else .error (.invalidArgument "Invalid channel width for 2.4GHz band.")
    else .error (.invalidArgument "Invalid channel number for 2.4GHz band.")
  | .band5g =>
    if 36 ≤ channel ∧ channel ≤ 165 then
      let frequency := 5170 + (channel - 36) * 5
      if width = 20 then .ok ([channel], [frequency, frequency + 20])
      else if width = 40 then .ok ([channel, channel + 2], [frequency - 10, frequency + 30])
      else if width = 80 then .ok ([channel, channel + 6], [frequency - 30, frequency + 50])
      else if width = 160 then .ok ([channel, channel + 12], [frequency - 70, frequency + 90])
      else .error (.invalidArgument "Invalid channel width for 5GHz band.")
    else .error (.invalidArgument "Invalid channel number for 5GHz band.")
  | .band6g =>
    if 1 ≤ channel ∧ channel ≤ 233 then
      let frequency := 5945 + (channel - 1) * 5
      if width = 20 then .ok ([channel], [frequency, frequency + 19])
      else if width = 40 then .ok ([channel, channel + 2], [frequency - 10, frequency + 29])
      else if width = 80 then .ok ([channel, channel + 6], [frequency - 30, frequency + 49])
      else if width = 160 then .ok ([channel, channel + 12], [frequency - 70, frequency + 89])
      else .error (.invalidArgument "Invalid channel width for 6GHz band.")
    else .error (.invalidArgument "Invalid channel number for 6GHz band.")

end OWLSutils

/-! ## Elements -/

structure MockLanClient where
  ipv6Addresses : List String := []
  ipv4Addresses : List String := []
  ports : List String := []
  mac : String := ""

structure MockAssociation where
  station : String := ""
  bssid : String := ""
  ipaddrV4 : String := ""
  ipaddrV6 : String := ""
  ackSignal : Int := 0
  ackSignalAvg : Int
  rssi : Int

structure MockRadio where
  channel : UInt64 := 0
  channelWidth : UInt64 := 40
  txPower : UInt64 := 23
  phy : String := ""
  index : Nat := 0
  radioBands : RadioBands := .band2g
  channels : List UInt64 := []
  frequency : List UInt64 := []
  band : List String := []

namespace OWLSclient

def lanClient : Drawing MockLanClient := do
  let mac ← randomMAC
  let ipv4 ← randomIPv4
  let ipv6 ← randomIPv6
  return { mac, ipv4Addresses := [ipv4], ipv6Addresses := [ipv6], ports := ["eth1"] }

def newAssociation : Drawing MockAssociation := do
  let ackSignalAvg ← localRandom (-65) (-75)
  let rssi ← localRandom (-40) (-90)
  return { ackSignalAvg, rssi }

def association (bssid : String) : Drawing MockAssociation := do
  let a ← newAssociation
  let station ← randomMAC
  let ackSignalAvg ← localRandom (-40) (-60)
  let ipaddrV4 ← randomIPv4
  let ipaddrV6 ← randomIPv6
  let rssi ← localRandom (-40) (-90)
  return { a with bssid, station, ackSignalAvg, ackSignal := ackSignalAvg, ipaddrV4, ipaddrV6,
                  rssi }

end OWLSclient

/-! ## What is drawn -/

variable {min max n : UInt64}

theorem returns_randomEngine : Returns randomEngine fun _ => True :=
  fun r => ⟨r.engine.head, { r with engine := r.engine.tail }, rfl, trivial⟩

theorem returns_localRandom (a b : Int) : Returns (localRandom a b) fun _ => True :=
  fun r => ⟨_, { r with gen := r.gen.tail }, rfl, trivial⟩

theorem returns_rand : Returns rand fun _ => True :=
  fun r => ⟨r.rand.head, { r with rand := r.rand.tail }, rfl, trivial⟩

theorem returns_remainder {ceiling : UInt64} (h : ceiling ≠ 0) :
    Returns (remainder n ceiling) (· = n % ceiling) := by
  rw [remainder, Word.mod?_of_ne_zero h]
  exact returns_pure rfl

theorem returns_randomBelow {ceiling : UInt64} (h : ceiling ≠ 0) :
    Returns (randomBelow ceiling) fun _ => True :=
  returns_randomEngine.bind fun _ _ => (returns_remainder h).mono fun _ _ => trivial

theorem returns_random (h : min < max) : Returns (random min max) fun n => min ≤ n ∧ n < max := by
  have hlt := UInt64.lt_iff_toNat_lt.mp h
  have hsub : (max - min).toNat = max.toNat - min.toNat :=
    UInt64.toNat_sub_of_le _ _ (UInt64.le_iff_toNat_le.mpr (Nat.le_of_lt hlt))
  have hpos : max - min ≠ 0 := by
    rw [Word.ne_zero_iff, hsub]
    omega
  refine returns_randomEngine.bind fun n _ => (returns_remainder hpos).map ?_
  rintro _ rfl
  have hmod : (n % (max - min)).toNat < max.toNat - min.toNat := by
    rw [UInt64.toNat_mod, hsub]
    exact Nat.mod_lt _ (by omega)
  have hmax := max.toNat_lt
  have hadd := Word.toNat_add_of_lt (a := n % (max - min)) (b := min) (by omega)
  rw [UInt64.le_iff_toNat_le, UInt64.lt_iff_toNat_lt, hadd]
  omega

theorem returns_random_of_ne (h : min ≠ max) : Returns (random min max) fun _ => True := by
  have hceiling : max - min ≠ 0 := by
    intro hsub
    rw [UInt64.sub_eq_iff_eq_add, UInt64.zero_add] at hsub
    exact h hsub.symm
  exact returns_randomEngine.bind fun _ _ =>
    (returns_remainder hceiling).map fun _ _ => trivial

theorem stops_random : Stops (random n n) .divisionByZero := by
  refine returns_randomEngine.stops fun m _ => Stops.bind ?_
  rw [remainder, UInt64.sub_self, Word.mod?_eq_none.mpr rfl]
  exact stops_throw

theorem returns_randomMAC : Returns randomMAC fun _ => True :=
  ((returns_randomBelow (by decide)).times 6).map fun _ _ => trivial

theorem returns_randomIPv4 : Returns randomIPv4 fun _ => True :=
  ((returns_randomBelow (by decide)).times 4).map fun _ _ => trivial

theorem returns_randomIPv6 : Returns randomIPv6 fun _ => True :=
  ((returns_randomBelow (by decide)).times 8).map fun _ _ => trivial

theorem returns_lanClient : Returns OWLSclient.lanClient fun _ => True :=
  returns_randomMAC.bind fun _ _ => returns_randomIPv4.bind fun _ _ =>
    returns_randomIPv6.map fun _ _ => trivial

theorem returns_association (bssid : String) :
    Returns (OWLSclient.association bssid) fun _ => True := by
  have hnew : Returns OWLSclient.newAssociation fun _ => True :=
    (returns_localRandom _ _).bind fun _ _ => (returns_localRandom _ _).map fun _ _ => trivial
  exact hnew.bind fun _ _ => returns_randomMAC.bind fun _ _ => (returns_localRandom _ _).bind
    fun _ _ => returns_randomIPv4.bind fun _ _ => returns_randomIPv6.bind fun _ _ =>
      (returns_localRandom _ _).map fun _ _ => trivial

theorem returns_pick {channels : List UInt64} {numChan : Nat} (h : numChan < channels.length) :
    Returns (pick channels numChan) (· ∈ channels) := by
  refine returns_rand.map fun n _ => ?_
  have hlt : n.toNat % (channels.length - numChan) < channels.length :=
    Nat.lt_of_lt_of_le (Nat.mod_lt _ (Nat.sub_pos_of_lt h)) (Nat.sub_le _ _)
  rw [List.getD_eq_getElem?_getD, List.getElem?_eq_getElem hlt]
  exact List.getElem_mem hlt

end Owls
