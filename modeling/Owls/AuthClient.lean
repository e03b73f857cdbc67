import Mathlib.Logic.Function.Basic
import Owls.Base.Machine
import Owls.Objects

/-!
# The caches of `AuthClient`

`Poco::ExpireLRUCache` is a map that may drop entries at any time: `Event.dropped`.
-/

open Machine

namespace Owls.AuthClient

/-! ## State -/

structure ApiKeyCacheEntry where
  userInfo : UserInfoAndPolicy
  expiresOn : UInt64
deriving DecidableEq

structure State where
  cache : String → Option UserInfoAndPolicy := fun _ => none
  apiKeyCache : String → Option ApiKeyCacheEntry := fun _ => none

def State.updateApiKey (s : State) (key : String) (e : ApiKeyCacheEntry) : State :=
  { s with apiKeyCache := Function.update s.apiKeyCache key (some e) }

def State.removeApiKey (s : State) (key : String) : State :=
  { s with apiKeyCache := Function.update s.apiKeyCache key none }

def State.removeToken (s : State) (token : String) : State :=
  { s with cache := Function.update s.cache token none }

/-! ## The functions -/

/-- The JSON document of an `HTTP_OK` answer. `expiresOn` is `none` when the field is absent,
and `some none` when it does not convert to a number. -/
structure ApiKeyResponse where
  tokenInfo : Bool
  userInfo : Bool
  expiresOn : Option (Option UInt64)
  info : UserInfoAndPolicy

/-- What `Req.Do` gives for a request to `/api/v1/validateApiKey`: an exception, a status, or
`HTTP_OK` with its document (`none` for a null pointer). -/
inductive Answer where
  | throws
  | gatewayTimeout
  | refused
  | ok (response : Option ApiKeyResponse)

/-- What a call returns, and what it writes to its reference parameters (`none` where it leaves
one alone). `asked` records that the security service was contacted. -/
structure Verdict where
  valid : Bool
  info : Option UserInfoAndPolicy := none
  expired : Option Bool := none
  contacted : Option Bool := none
  asked : Bool := false

def retrieveApiKeyInformation (s : State) (key : String) (a : Answer) : Verdict × State :=
  match a with
  | .throws => ({ valid := false, expired := some false, asked := true }, s)
  | .gatewayTimeout => ({ valid := false, contacted := some false, asked := true }, s)
  -- `Response->has` on a null pointer throws, and ends as any refusal does.
  | .refused | .ok none =>
    ({ valid := false, expired := some false, contacted := some true, asked := true }, s)
  | .ok (some r) =>
    if r.tokenInfo && r.userInfo then
      match r.expiresOn with
      | none => ({ valid := false, contacted := some true, asked := true }, s)
      | some none =>
        -- The conversion throws, and `catch (...)` falls through to the end.
        ({ valid := false, info := some r.info, expired := some false, contacted := some true,
           asked := true }, s)
      | some (some expiresOn) =>
        ({ valid := true, info := some r.info, expired := some false, contacted := some true,
           asked := true }, s.updateApiKey key ⟨r.info, expiresOn⟩)
    else ({ valid := false, contacted := some true, asked := true }, s)

def isValidApiKey (s : State) (key : String) (now : UInt64) (a : Answer) : Verdict × State :=
  match s.apiKeyCache key with
  | some user =>
    if user.expiresOn < now then
      ({ valid := true, info := some user.userInfo, expired := some false }, s)
    else retrieveApiKeyInformation (s.removeApiKey key) key a
  | none => retrieveApiKeyInformation s key a

def removedCachedToken (s : State) (token : String) : State :=
  (s.removeToken token).removeApiKey token

theorem retrieve_asked (s : State) (key : String) (a : Answer) :
    (retrieveApiKeyInformation s key a).1.asked = true := by
  unfold retrieveApiKeyInformation
  split <;> try rfl
  split
  · split <;> rfl
  · rfl

/-! ## Runs -/

inductive Event where
  | isValidApiKey (key : String) (now : UInt64) (answer : Answer)
  | removedCachedToken (token : String)
  | dropped (key : String)

def step (s : State) : Event → Option State
  | .isValidApiKey key now a => some (isValidApiKey s key now a).2
  | .removedCachedToken token => some (removedCachedToken s token)
  | .dropped key => some (s.removeApiKey key)

/-- What the cache owes a call: it answers from a live entry, and from nothing else. -/
def Honest (s : State) : Event → Prop
  | .isValidApiKey key now a =>
    let v := (isValidApiKey s key now a).1
    (v.valid = true → v.asked = false → ∃ e, s.apiKeyCache key = some e ∧ now ≤ e.expiresOn) ∧
    ∀ e, s.apiKeyCache key = some e → now ≤ e.expiresOn → v.valid = true ∧ v.asked = false
  | _ => True

def Misses (s : State) : Event → Prop
  | .isValidApiKey key _ _ => s.apiKeyCache key = none
  | _ => True

theorem honest_iff_misses (s : State) (e : Event) : Honest s e ↔ Misses s e := by
  cases e with
  | removedCachedToken | dropped => simp [Honest, Misses]
  | isValidApiKey key now a =>
    simp only [Honest, Misses, isValidApiKey]
    cases hc : s.apiKeyCache key with
    | none => simp [retrieve_asked]
    | some user =>
      by_cases hlt : user.expiresOn < now
      · have hnot : ¬ now ≤ user.expiresOn := UInt64.not_le.mpr hlt
        simp [hlt, hnot]
      · have hle : now ≤ user.expiresOn := UInt64.not_lt.mp hlt
        simp [hlt, hle, retrieve_asked]

/-- The cache is honest in exactly the runs in which no call finds its key in it. -/
theorem apiKeyCache_honest_iff (s : State) (es : List Event) :
    Steps step Honest s es ↔ Steps step Misses s es :=
  steps_congr honest_iff_misses

def goodKey : Answer := .ok (some ⟨true, true, some (some 100), {}⟩)

/-- A key that expired at 100 is accepted at 200 with no word from the security service. -/
theorem expired_key_accepted : ¬ ∀ es, Steps step Honest {} es := by
  intro h
  have hlast := h [.isValidApiKey "key" 50 goodKey, .isValidApiKey "key" 200 .gatewayTimeout]
    [.isValidApiKey "key" 50 goodKey] (.isValidApiKey "key" 200 .gatewayTimeout)
    (List.prefix_refl _) _ _ rfl rfl
  obtain ⟨e, he, hnow⟩ := hlast.1 rfl rfl
  cases he
  exact absurd hnow (by decide)

end Owls.AuthClient
