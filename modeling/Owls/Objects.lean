import Mathlib.Data.List.Basic

/-!
# The records of the REST API

What the modelled functions read of `OWLSObjects`, `SecurityObjects`, `Types` and
`RESTAPI::Errors`. A `std::string` is a Lean string in which a `Char` stands for a byte, here and
in every other module; `uint64_t` is `UInt64`.
-/

namespace Owls

/-! ## OWLSObjects -/

structure SimulationDetails where
  id : String := ""
  name : String := ""
  gateway : String := ""
  certificate : String := ""
  key : String := ""
  macPrefix : String := ""
  deviceType : String := ""
  devices : UInt64 := 5
  healthCheckInterval : UInt64 := 60
  stateInterval : UInt64 := 60
  minAssociations : UInt64 := 1
  maxAssociations : UInt64 := 3
  minClients : UInt64 := 1
  maxClients : UInt64 := 3
  simulationLength : UInt64 := 60 * 60
  threads : UInt64 := 16
  clientInterval : UInt64 := 1
  keepAlive : UInt64 := 300
  reconnectInterval : UInt64 := 30
  concurrentDevices : UInt64 := 5
deriving DecidableEq

structure SimulationStatus where
  id : String := ""
  simulationId : String := ""
  state : String := ""
  owner : String := ""
  tx : UInt64 := 0
  rx : UInt64 := 0
  msgsTx : UInt64 := 0
  msgsRx : UInt64 := 0
  liveDevices : UInt64 := 0
  timeToFullDevices : UInt64 := 0
  startTime : UInt64 := 0
  endTime : UInt64 := 0
  errorDevices : UInt64 := 0
  expectedDevices : UInt64 := 0
deriving DecidableEq

/-! ## SecurityObjects -/

inductive UserRole where
  | unknown | root | admin | subscriber | csr | system | installer | noc | accounting | partner
deriving DecidableEq

structure UserInfo where
  email : String := ""
  userRole : UserRole := .unknown
deriving DecidableEq

structure WebToken where
  expiresIn : UInt64 := 0
  created : UInt64 := 0
deriving DecidableEq

structure UserInfoAndPolicy where
  webtoken : WebToken := {}
  userinfo : UserInfo := {}
deriving DecidableEq

/-! ## Types -/

structure MicroServiceMeta where
  id : UInt64 := 0
  type : String := ""
  privateEndPoint : String := ""
  publicEndPoint : String := ""
  accessKey : String := ""
  version : String := ""
  lastUpdate : UInt64 := 0
deriving DecidableEq

/-- A `std::vector` is never so long that `size()+1` wraps. -/
structure MicroServiceMetaVec where
  toList : List MicroServiceMeta := []
  fits : toList.length + 1 < UInt64.size := by decide

theorem MicroServiceMetaVec.fits_nil : ([] : List MicroServiceMeta).length + 1 < UInt64.size := by
  decide

def MicroServiceMetaVec.empty : MicroServiceMetaVec := ⟨[], fits_nil⟩

def MicroServiceMetaVec.size (v : MicroServiceMetaVec) : UInt64 := .ofNat v.toList.length

theorem MicroServiceMetaVec.toNat_size_add_one (v : MicroServiceMetaVec) :
    (v.size + 1).toNat = v.toList.length + 1 := by
  have hfits := v.fits
  rw [size, UInt64.toNat_add, UInt64.toNat_ofNat_of_lt' (by omega)]
  exact Nat.mod_eq_of_lt hfits

/-! ## RESTAPI::Errors -/

namespace Errors

structure Msg where
  errNum : UInt64
  errTxt : String
deriving DecidableEq

def accessDenied : Msg := ⟨7, "Access denied."⟩
def invalidToken : Msg := ⟨8, "Invalid token."⟩
def expiredToken : Msg := ⟨9, "Expired token."⟩
def rateLimitExceeded : Msg := ⟨10, "Rate limit exceeded."⟩
def securityServiceUnreachable : Msg :=
  ⟨13, "Security service is unreachable, try again later."⟩
def internalError : Msg := ⟨1002, "Internal error. Please try later."⟩
def invalidJSONDocument : Msg := ⟨1003, "Invalid JSON document."⟩
def unsupportedHTTPMethod : Msg := ⟨1004, "Unsupported HTTP Method"⟩
def missingOrInvalidParameters : Msg := ⟨1018, "Invalid or missing parameters."⟩
def simulationDoesNotExist : Msg := ⟨7000, "Simulation Instance ID does not exist."⟩
def simulationIsAlreadyRunning : Msg :=
  ⟨7001, "There is an instance of this simulation already running.."⟩

end Errors

end Owls
