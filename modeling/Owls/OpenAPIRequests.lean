import Owls.Directory
import Owls.Reports

/-!
# `OpenAPIRequests`

The requests of one process to another, and what the other makes of the key in them. The four
`Do` differ in the body that they send and in the responses that they parse.
-/

open Machine

namespace Owls.OpenAPIRequests

open Directory MicroService Reports Word

/-! ## The request -/

inductive Method where
  | get
  | put
  | post
  | delete
deriving DecidableEq

def Method.hasBody : Method → Bool
  | .put | .post => true
  | .get | .delete => false

structure OpenAPIRequest where
  method : Method
  type : String
  endPoint : String
  queryData : Parameters := []
  /-- The text of `Body_`. -/
  body : String := ""

/-- What goes over the connection. -/
structure Sent where
  secure : Bool
  host : String
  port : UInt16
  path : String
  query : Parameters
  headers : List (String × String)
  body : String
deriving DecidableEq

/-- What comes back, with the JSON object that it holds, if it holds one. -/
inductive Answer (V : Type) where
  | exception
  | response (status : Nat) (document : Option V)

variable {V : Type} (uri : String → Option URI) (publicEndPoint : String)

def authorization (service : MicroServiceMeta) (bearerToken : String) : List (String × String) :=
  if bearerToken = "" then
    [("X-API-KEY", service.accessKey), ("X-INTERNAL-NAME", publicEndPoint)]
  else [("Authorization", "Bearer " ++ bearerToken)]

def headers (r : OpenAPIRequest) (service : MicroServiceMeta) (bearerToken : String) :
    List (String × String) :=
  (if r.method.hasBody then
    [("Content-Type", "application/json"), ("Content-Length", toString r.body.length)]
  else []) ++ authorization publicEndPoint service bearerToken

def sent (r : OpenAPIRequest) (service : MicroServiceMeta) (bearerToken : String) (u : URI) :
    Sent :=
  { secure := u.scheme == "https", host := u.host, port := u.port, path := r.endPoint,
    query := u.query ++ r.queryData, headers := headers publicEndPoint r service bearerToken,
    body := if r.method.hasBody then r.body else "" }

def gatewayTimeout : Nat := 504

/-- The status that is returned, and the document that is handed out. A response that does not
parse raises an exception. -/
def received (m : Method) : Answer V → Nat × Option V
  | .exception => (gatewayTimeout, none)
  | .response status document =>
    match m with
    | .get =>
      if status = 200 then document.elim (gatewayTimeout, none) fun d => (status, some d)
      else (status, none)
    | .put | .post => document.elim (gatewayTimeout, none) fun d => (status, some d)
    | .delete => (status, none)

/-- The loop over the services, which returns from its first pass. -/
def doFor (r : OpenAPIRequest) (bearerToken : String) (answer : Sent → Answer V) :
    List MicroServiceMeta → Option Sent × Nat × Option V
  | [] => (none, gatewayTimeout, none)
  | service :: _ =>
    match uri service.privateEndPoint with
    | none => (none, gatewayTimeout, none)
    | some u =>
      let out := sent publicEndPoint r service bearerToken u
      (some out, received r.method (answer out))

/-- `Do`: what is sent, the status and the document. -/
def doRequest (services : Services) (r : OpenAPIRequest) (bearerToken : String)
    (answer : Sent → Answer V) : Option Sent × Nat × Option V :=
  doFor uri publicEndPoint r bearerToken answer (getServices services r.type)

variable {uri publicEndPoint} {computeHash : Hash} {own : UInt64} {r : OpenAPIRequest}
  {service : MicroServiceMeta} {token : String}

/-! ## The service that is asked -/

theorem find_authorization (q : RESTAPIHandler.Request)
    (hq : q.headers = headers publicEndPoint r service "") :
    q.find "X-API-KEY" = some service.accessKey ∧
      q.find "X-INTERNAL-NAME" = some publicEndPoint := by
  have hkey : ("X-API-KEY".toLower == "X-INTERNAL-NAME".toLower) = false := by decide +kernel
  have htype (name : String) (hname : name = "X-API-KEY" ∨ name = "X-INTERNAL-NAME") :
      ("Content-Type".toLower == name.toLower) = false ∧
        ("Content-Length".toLower == name.toLower) = false := by
    rcases hname with rfl | rfl <;> exact ⟨by decide +kernel, by decide +kernel⟩
  obtain ⟨htype₁, hlength₁⟩ := htype "X-API-KEY" (.inl rfl)
  obtain ⟨htype₂, hlength₂⟩ := htype "X-INTERNAL-NAME" (.inr rfl)
  unfold RESTAPIHandler.Request.find
  rw [hq, headers, authorization, if_pos rfl]
  cases r.method.hasBody <;>
    simp [hkey, htype₁, htype₂, hlength₁, hlength₂]

theorem isAuthorized_of_hash {W : Type} (h : RESTAPIHandler.Handler) (hi : h.isInternal = true)
    (w : RESTAPIHandler.World W) (q : RESTAPIHandler.Request)
    (hkey : q.find "X-API-KEY" = some w.myHash) {name : String}
    (hname : q.find "X-INTERNAL-NAME" = some name) (st : RESTAPIHandler.Handling W) :
    RESTAPIHandler.isAuthorized h w q st =
      (.value { allowed := true, contacted := true }, { st with requester := name }) := by
  have hhas : q.has "X-INTERNAL-NAME" = true := by
    rw [RESTAPIHandler.Request.has, hname]
    rfl
  have hget : q.get "X-INTERNAL-NAME" "unknown" = name := by
    rw [RESTAPIHandler.Request.get, hname]
    rfl
  rw [RESTAPIHandler.isAuthorized, if_pos ⟨hi, hhas⟩]
  unfold RESTAPIHandler.authorizeInternal RESTAPIHandler.isValidAPIKEY
  simp only [hkey, hget, beq_self_eq_true]
  rfl

variable [JsonField V] {s : System V} {e : String}

omit [JsonField V] in
theorem said_privateEndPoint {heard : List (Heard V)} {p : Process} {event : String} {time : UInt64}
    (h : latestPost e heard = some (p, event, time)) : p.privateEndPoint = e := by
  have hmem := List.mem_of_mem_head? (Option.mem_def.mpr h)
  obtain ⟨post, -, hsaid⟩ := List.mem_filterMap.mp hmem
  unfold Heard.said at hsaid
  split at hsaid
  · split at hsaid
    · rename_i he
      cases hsaid
      exact he
    · cases hsaid
  · cases hsaid

theorem mem_getServices {services : Services} {type : String} {service : MicroServiceMeta}
    (h : service ∈ getServices services type) :
    service.type = type.toLower ∧ ∃ e : String, services[e]? = some service := by
  obtain ⟨hmem, htype⟩ := List.mem_filter.mp h
  obtain ⟨⟨e, service'⟩, hentry, rfl⟩ := List.mem_map.mp hmem
  exact ⟨beq_iff_eq.mp htype, e, Std.ExtTreeMap.mem_toList_iff_getElem?_eq_some.mp hentry⟩

theorem entry_of_running (hposted : Posted own s) (h : Recorded computeHash own s)
    (hread : s.heard.length = s.log.length) (hservice : s.bus.state.services[e]? = some service)
    {p : Process} (hp : s.running e = some p) :
    ∃ time, service = p.service computeHash time := by
  obtain ⟨p', event, time, hlatest, -, rfl⟩ := h.table e service hservice
  have hlog : s.heard.reverse.map Heard.post = s.log :=
    h.read.eq_of_length (by rw [List.length_map, List.length_reverse, hread])
  have hholder := latestPost_fst e s.heard
  rw [hlatest, hlog, Option.map_some] at hholder
  rcases hposted.last e p hp with hnone | hsome
  · rw [hnone] at hholder
    cases hholder
  · rw [hsome] at hholder
    cases hholder
    exact ⟨time, rfl⟩

/-- A request without a token, from a process that has read the topic to its end: if it is sent,
then to a service of the type that was asked for, and the process that runs there lets it in. -/
theorem internal_request_allowed {running : String → Option Process}
    (hrunning : Apart own running) {es : List (Event V)}
    (hrun : run (step computeHash own) (begin running) es = some s)
    (hread : s.heard.length = s.log.length) {answer : Sent → Answer V} {out : Sent}
    (hout : (doRequest uri publicEndPoint s.bus.state.services r "" answer).1 = some out) :
    ∃ (e : String) (u : URI), uri e = some u ∧ out.host = u.host ∧ out.port = u.port ∧
      ∀ p, s.running e = some p → p.name.toLower.toLower = r.type.toLower ∧
        ∀ {W : Type} (h : RESTAPIHandler.Handler) (w : RESTAPIHandler.World W)
          (q : RESTAPIHandler.Request) st, h.isInternal = true → w.myHash = p.myHash computeHash →
          q.headers = out.headers → RESTAPIHandler.isAuthorized h w q st =
            (.value { allowed := true, contacted := true },
              { st with requester := publicEndPoint }) := by
  obtain ⟨hposted, hrecorded⟩ := kept_run hrunning hrun
  unfold doRequest at hout
  cases hlist : getServices s.bus.state.services r.type with
  | nil =>
    rw [hlist] at hout
    cases hout
  | cons service rest =>
    rw [hlist, doFor] at hout
    obtain ⟨htype, e, hservice⟩ := mem_getServices (hlist ▸ List.mem_cons_self ..)
    obtain ⟨p', event, time, hlatest, -, rfl⟩ := hrecorded.table e service hservice
    have he : (p'.service computeHash time).privateEndPoint = e := said_privateEndPoint hlatest
    rw [he] at hout
    cases hu : uri e with
    | none =>
      rw [hu] at hout
      cases hout
    | some u =>
      rw [hu] at hout
      cases hout
      refine ⟨e, u, hu, rfl, rfl, fun p hp => ?_⟩
      obtain ⟨time', hentry⟩ := entry_of_running hposted hrecorded hread hservice hp
      refine ⟨by rw [← htype, hentry]; rfl, ?_⟩
      intro W h w q st hi hw hq
      obtain ⟨hkey, hname⟩ := find_authorization q hq
      refine isAuthorized_of_hash h hi w q ?_ hname st
      rw [hkey, hentry, hw]
      rfl

section OneRequest

open SimulationHandler (Plain)

def oneTarget (t : String) : Option URI :=
  if t = "e" then some { scheme := "https", host := "h", port := 16007 } else none

def oneQuestion : OpenAPIRequest :=
  { method := .get, type := "owls", endPoint := "/api/v1/system" }

def oneSent : Sent :=
  { secure := true, host := "h", port := 16007, path := "/api/v1/system", query := [],
    headers := [("X-API-KEY", "#p"), ("X-INTERNAL-NAME", "q")], body := "" }

def oneWorld : RESTAPIHandler.World Unit := { RESTAPIHandler.bareWorld with myHash := "#p" }

def oneIncoming : RESTAPIHandler.Request :=
  { method := "GET", uri := "/api/v1/system", headers := oneSent.headers }

theorem internal_request_allowed_joined :
    RESTAPIHandler.isAuthorized { methods := ["GET"], isInternal := true } oneWorld oneIncoming
        { limiter := fun _ => none, auth := {} } =
      (.value { allowed := true, contacted := true },
        { limiter := fun _ => none, auth := {}, requester := "q" }) := by
  have hout : (doRequest (V := Plain) oneTarget "q" joined.bus.state.services oneQuestion ""
      fun _ => .exception).1 = some oneSent := by decide +kernel
  have hapart : Apart 1 fun _ => none := fun _ _ h => by cases h
  obtain ⟨e, u, hu, -, -, hallowed⟩ :=
    internal_request_allowed hapart run_joins (by decide +kernel) hout
  obtain rfl : e = "e" := by
    by_contra hne
    rw [oneTarget, if_neg hne] at hu
    cases hu
  exact (hallowed oneProcess (by decide +kernel)).2 _ oneWorld oneIncoming _ rfl rfl rfl

end OneRequest

end Owls.OpenAPIRequests
