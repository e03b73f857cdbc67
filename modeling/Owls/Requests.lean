import Mathlib.Data.List.Infix
import Owls.Base.Exits
import Owls.Query
import Owls.Tokens

/-!
# `RESTAPIHandler::handleRequest`

What a request passes before one of `DoGet`, `DoPost`, `DoPut` and `DoDelete` runs.
-/

open Exits

namespace Owls.RESTAPIHandler

/-! ## Requests and replies -/

inductive Thrown where
  | poco
  /-- No `Poco::Exception`: `handleRequest` does not catch it. -/
  | std

inductive Body where
  | doGet
  | doPost
  | doDelete
  | doPut
deriving DecidableEq

def Body.method : Body → String
  | .doGet => "GET"
  | .doPost => "POST"
  | .doDelete => "DELETE"
  | .doPut => "PUT"

structure Request where
  method : String
  uri : String
  headers : List (String × String) := []
  content : String := ""
  host : String := ""

namespace Request

/-- The first header of that name, in any case. -/
def find (r : Request) (name : String) : Option String :=
  (r.headers.find? fun header => header.1.toLower == name.toLower).map (·.2)

def has (r : Request) (name : String) : Bool := (r.find name).isSome

def get (r : Request) (name dflt : String) : String := (r.find name).getD dflt

end Request

inductive Reply where
  | options (allowMethods : String)
  | error (status : Nat) (errorCode : UInt64) (errorDetails errorDescription : String)

/-- What is done for a request. -/
inductive Act where
  | invoked (b : Body)
  | replied (reply : Reply)
  | raised (e : Thrown)

/-! ## The rate limiter -/

structure RateLimit where
  interval : Int64 := 1000
  maxCalls : Int64 := 100

structure ClientCacheEntry where
  start : Int64 := 0
  count : Int32 := 0

abbrev RateCache := UInt64 → Option ClientCacheEntry

def limit (cache : RateCache) (key : UInt64) (now : Int64) (rates : RateLimit) : Bool × RateCache :=
  match cache key with
  | none => (false, Function.update cache key (some ⟨now, 1⟩))
  | some e =>
    if now - e.start < rates.interval then
      let counted : ClientCacheEntry := { e with count := e.count + 1 }
      (decide (rates.maxCalls < counted.count.toInt64), Function.update cache key (some counted))
    else (false, Function.update cache key (some ⟨now, 1⟩))

/-! ## The handler -/

structure Handler where
  methods : List String
  isInternal : Bool := false
  alwaysAuthorize : Bool := true
  rateLimited : Bool := false
  myRates : RateLimit := {}
  subOnlyService : Bool := false

/-- What the rest of the process and the libraries answer while a request is handled. -/
structure World (V : Type) where
  contentLength : Request → Except Thrown Int64
  parse : String → Except Thrown V
  /-- `Poco::URI`: the path and the query parameters. -/
  uri : String → Except Thrown (String × Parameters)
  /-- `OAuth20Credentials`: the scheme and the token. -/
  credentials : Request → Except Thrown (String × String)
  strHash : String → UInt64
  sends : Reply → Except Thrown Unit
  clock : Int64
  now : UInt64
  myHash : String
  apiKeyAnswer : AuthClient.Answer
  /-- By the end point that is asked. -/
  tokenAnswer : String → AuthClient.TokenAnswer
  body : Body → Except Thrown Unit

/-- A handler at work. The caches of the limiter and of `AuthClient` are those of the process: each
is read at one place only, so that other threads do no more than choose what is read there. -/
structure Handling (V : Type) where
  limiter : RateCache
  auth : AuthClient.State
  parsedBody : Option V := none
  sessionToken : String := ""
  userInfo : UserInfoAndPolicy := {}
  requester : String := ""
  parameters : Parameters := []
  queryBlock : QueryBlock := {}
  /-- The latest first. -/
  trace : List Act := []

variable {V : Type}

abbrev Step (V α : Type) := Call (Handling V) Thrown α

def Handling.note (s : Handling V) (a : Act) : Handling V := { s with trace := a :: s.trace }

def attempt {α : Type} : Except Thrown α → Step V α
  | .ok a => pure a
  | .error e => do
    Call.modify fun s => s.note (.raised e)
    Call.throw e

/-- `try`, and `catch (const Poco::Exception &)`. -/
def catching (x handler : Step V Unit) : Step V Unit :=
  x.tryCatch fun e =>
    match e with
    | .poco => handler
    | .std => Call.throw .std

variable (h : Handler) (w : World V) (r : Request)

def send (reply : Reply) : Step V Unit := do
  attempt (w.sends reply)
  Call.modify fun s => s.note (.replied reply)

def describe (e : Errors.Msg) : String := toString e.errNum ++ ": " ++ e.errTxt

def badRequest (e : Errors.Msg) : Step V Unit := send w (.error 400 400 r.method (describe e))

def unAuthorized (e : Errors.Msg) : Step V Unit :=
  send w (.error 403 e.errNum r.method (describe e))

def makeList (l : List String) : String :=
  l.foldl (fun all i => if all = "" then i else all ++ ", " ++ i) ""

def processOptions : Step V Unit := send w (.options (makeList h.methods))

def continueProcessing : Step V Bool := do
  if r.method = "OPTIONS" then
    processOptions h w
    return false
  else if r.method ∉ h.methods then
    badRequest w r Errors.unsupportedHTTPMethod
    return false
  else
    return true

def isRateLimited (cache : RateCache) : Except Thrown (Bool × RateCache) := do
  let (path, _) ← w.uri r.uri
  return limit cache (w.strHash (path ++ r.host)) w.clock h.myRates

/-- `MicroService::IsValidAPIKEY`. The exception of a header that is missing ends here. -/
def isValidAPIKEY : Step V Bool :=
  match r.find "X-API-KEY" with
  | some key => pure (key == w.myHash)
  | none => do
    Call.modify fun s => s.note (.raised .poco)
    return false

/-- What `IsAuthorized` returns, and the flags that it sets. -/
structure Access where
  allowed : Bool
  expired : Bool := false
  contacted : Bool := false

def Access.ofVerdict (v : AuthClient.Verdict) : Access :=
  { allowed := v.valid, expired := v.expired.getD false, contacted := v.contacted.getD false }

/-- The user of a verdict, and who asks. -/
def Handling.accept (s : Handling V) (v : AuthClient.Verdict) : Handling V :=
  let s := { s with userInfo := v.info.getD s.userInfo }
  if v.valid then { s with requester := s.userInfo.userinfo.email } else s

def authorizeInternal : Step V Access := do
  let allowed ← isValidAPIKEY w r
  Call.when allowed <|
    Call.modify fun s => { s with requester := r.get "X-INTERNAL-NAME" "unknown" }
  return { allowed, contacted := true }

def authorizeKey : Step V Access := do
  let token := r.get "X-API-KEY" ""
  let s ← Call.get
  let out := AuthClient.isValidApiKey s.auth token w.now w.apiKeyAnswer
  Call.modify fun s => { s with auth := out.2, sessionToken := token }.accept out.1
  return .ofVerdict out.1

/-- The token stays empty when there are no credentials. -/
def readToken : Step V Unit :=
  catching
    (do
      let (scheme, token) ← attempt (w.credentials r)
      Call.when (scheme = "Bearer") <|
        Call.modify fun s => { s with sessionToken := token })
    (pure ())

def authorizeToken : Step V Access := do
  let s ← Call.get
  Call.when (s.sessionToken = "") <| readToken w r
  let s ← Call.get
  let answer := w.tokenAnswer (AuthClient.endpoint h.subOnlyService)
  let out := AuthClient.isAuthorized s.auth s.sessionToken w.now answer
  Call.modify fun s => { s with auth := out.2 }.accept out.1
  return .ofVerdict out.1

def isAuthorized : Step V Access :=
  if h.isInternal ∧ r.has "X-INTERNAL-NAME" then authorizeInternal w r
  else if ¬ h.isInternal ∧ r.has "X-API-KEY" then authorizeKey w r
  else authorizeToken h w r

def parseBody : Step V Unit := do
  let length ← attempt (w.contentLength r)
  Call.when (0 < length) <|
    Call.when ("application/json".toList <:+: (r.get "Content-Type" "").toList) do
      let document ← attempt (w.parse r.content)
      Call.modify fun s => { s with parsedBody := some document }

def limitRate : Step V Unit :=
  Call.when h.rateLimited do
    let s ← Call.get
    let (refused, limiter) ← attempt (isRateLimited h w r s.limiter)
    Call.modify fun s => { s with limiter }
    Call.when refused do
      unAuthorized w r Errors.rateLimitExceeded
      Call.exit

def refuse (a : Access) : Step V Unit :=
  if a.expired then unAuthorized w r Errors.expiredToken
  else if a.contacted then unAuthorized w r Errors.invalidToken
  else unAuthorized w r Errors.securityServiceUnreachable

def authorize : Step V Unit :=
  Call.when h.alwaysAuthorize do
    let a ← isAuthorized h w r
    Call.when (¬ a.allowed) do
      refuse w r a
      Call.exit

def parseParameters : Step V Unit := do
  let (_, parameters) ← attempt (w.uri r.uri)
  Call.modify fun s => { s with parameters }
  let queryBlock ← attempt ((initQueryBlock parameters).elim (.error .std) .ok)
  Call.modify fun s => { s with queryBlock }

def invoke (b : Body) : Step V Unit := do
  Call.modify fun s => s.note (.invoked b)
  attempt (w.body b)

def dispatch : Step V Unit :=
  if r.method = "GET" then invoke w .doGet
  else if r.method = "POST" then invoke w .doPost
  else if r.method = "DELETE" then invoke w .doDelete
  else if r.method = "PUT" then invoke w .doPut
  else badRequest w r Errors.unsupportedHTTPMethod

def handleRequest : Step V Unit :=
  catching
    (do
      parseBody w r
      limitRate h w r
      let goOn ← continueProcessing h w r
      Call.when (¬ goOn) Call.exit
      authorize h w r
      -- `RoleIsAuthorized` always agrees.
      parseParameters w r
      dispatch w r)
    (badRequest w r Errors.internalError)

/-! ## What a body has passed -/

/-- The token that `IsAuthorized` is asked about. -/
def token : String :=
  match w.credentials r with
  | .ok (scheme, token) => if scheme = "Bearer" then token else ""
  | .error _ => ""

/-- Neither of the first two ways of `IsAuthorized` is taken. -/
def ByToken : Prop :=
  ¬ (h.isInternal ∧ r.has "X-INTERNAL-NAME") ∧ ¬ (¬ h.isInternal ∧ r.has "X-API-KEY")

inductive Authorized (auth : AuthClient.State) : Prop where
  | hash (hi : h.isInternal = true) (hn : r.has "X-INTERNAL-NAME" = true)
    (hk : r.find "X-API-KEY" = some w.myHash)
  | apiKey {key : String} (he : h.isInternal = false) (hk : r.find "X-API-KEY" = some key)
    (hv : (AuthClient.isValidApiKey auth key w.now w.apiKeyAnswer).1.valid = true)
  | bearer (hby : ByToken h r)
    (hv : (AuthClient.isAuthorized auth (token w r) w.now
      (w.tokenAnswer (AuthClient.endpoint h.subOnlyService))).1.valid = true)

/-- The limiter lets the request through, if the handler asks it. -/
def Allowed (limiter : RateCache) : Prop :=
  h.rateLimited = true → ∃ cache, isRateLimited h w r limiter = .ok (false, cache)

structure Passed (limiter : RateCache) (auth : AuthClient.State) (b : Body) : Prop where
  method : r.method = b.method
  listed : r.method ∈ h.methods
  allowed : Allowed h w r limiter
  authorized : Authorized h w r auth

/-- One body at most, which has passed everything, and with `before` all that was done earlier. -/
structure Guarded (before : List Act → Prop) (limiter : RateCache) (auth : AuthClient.State)
    (trace : List Act) : Prop where
  once : ∀ b earlier, .invoked b :: earlier <:+ trace → ∀ b', .invoked b' ∉ earlier
  passed : ∀ b earlier, .invoked b :: earlier <:+ trace →
    Passed h w r limiter auth b ∧ before earlier

def Unraised (earlier : List Act) : Prop := ∀ e, .raised e ∉ earlier

/-- No exception, or the one of credentials that are missing, on the third way. -/
def Undisturbed (earlier : List Act) : Prop :=
  Unraised earlier ∨ earlier = [.raised .poco] ∧ w.credentials r = .error .poco ∧ ByToken h r

variable {h w r} {limiter : RateCache} {auth : AuthClient.State} {before : List Act → Prop}
  {C : Prop}

/-! ## The steps -/

/-- No body has run. -/
def Idle (s : Handling V) : Prop := ∀ b, .invoked b ∉ s.trace

theorem Idle.note {s : Handling V} (hs : Idle s) {a : Act} (ha : ∀ b, a ≠ .invoked b) :
    Idle (s.note a) := by
  intro b hmem
  rcases List.mem_cons.mp hmem with heq | hmem
  · exact ha b heq.symm
  · exact hs b hmem

theorem Idle.raised {s : Handling V} (hs : Idle s) (e : Thrown) : Idle (s.note (.raised e)) :=
  hs.note (by simp)

theorem ends_attempt {α : Type} {x : Except Thrown α} {P R : Handling V → Prop}
    (hR : ∀ s e, P s → R (s.note (.raised e))) :
    Ends P (attempt x) (fun a t => x = .ok a ∧ P t) R := by
  cases x with
  | ok a => exact ends_pure fun s hs => ⟨rfl, hs⟩
  | error e =>
    refine (ends_modify (Q := fun _ => R) fun s hs => hR s e hs).bind fun _ => ?_
    exact ends_throw fun s hs => hs

theorem ends_catching {x handler : Step V Unit} {P R R' : Handling V → Prop}
    {Q : Unit → Handling V → Prop} (h : Ends P x Q R) (hcatch : Ends R handler Q R')
    (hR : ∀ s, R s → R' s) : Ends P (catching x handler) Q R' := by
  refine h.tryCatch (fun e => ?_) hR
  cases e with
  | poco => exact hcatch
  | std => exact ends_throw hR

theorem ends_send {P : Handling V → Prop}
    (hP : ∀ s a, P s → (∀ b, a ≠ .invoked b) → P (s.note a)) (reply : Reply) :
    Ends P (send w reply) (fun _ => P) P := by
  refine (ends_attempt fun s e hs => hP s _ hs (by simp)).bind fun _ => ends_modify ?_
  rintro s ⟨-, hs⟩
  exact hP s _ hs (by simp)

theorem ends_send_idle (reply : Reply) : Ends Idle (send w reply) (fun _ => Idle) Idle :=
  ends_send (fun _ _ hs ha => Idle.note hs ha) reply

theorem Idle.guarded {s : Handling V} (hs : Idle s) :
    Guarded h w r before limiter auth s.trace where
  once b _ hsuf := absurd (hsuf.subset List.mem_cons_self) (hs b)
  passed b _ hsuf := absurd (hsuf.subset List.mem_cons_self) (hs b)

/-- Nothing is done yet, and the request has `C`. -/
structure Fresh (auth : AuthClient.State) (C : Prop) (s : Handling V) : Prop where
  trace : s.trace = []
  auth : s.auth = auth
  sessionToken : s.sessionToken = ""
  holds : C

theorem Fresh.idle {s : Handling V} (hs : Fresh auth C s) : Idle s := by
  intro b hmem
  rw [hs.trace] at hmem
  cases hmem

def Start (limiter : RateCache) (auth : AuthClient.State) (s : Handling V) : Prop :=
  s.limiter = limiter ∧ Fresh auth True s

theorem ends_parseBody :
    Ends (Start limiter auth) (parseBody w r) (fun _ => Start limiter auth) Idle := by
  have hidle (s : Handling V) (e : Thrown) (hs : Start limiter auth s) :
      Idle (s.note (.raised e)) := hs.2.idle.raised e
  refine (ends_attempt hidle).bind fun length => ?_
  refine ends_when (ends_when ?_ fun s _ hs => hs.2.2) fun s _ hs => hs.2
  refine ((ends_attempt hidle).pre fun s hs => hs.2.2.2).bind fun document => ends_modify ?_
  rintro s ⟨-, hlimiter, hs⟩
  exact ⟨hlimiter, hs.trace, hs.auth, hs.sessionToken, trivial⟩

theorem ends_limitRate : Ends (Start limiter auth) (limitRate h w r)
    (fun _ => Fresh auth (Allowed h w r limiter)) Idle := by
  refine ends_when (ends_get ?_) ?_
  · rintro s ⟨hlimited, rfl, hs⟩
    refine (ends_attempt ?_).bind fun ⟨refused, cache⟩ => ?_
    · rintro t e rfl
      exact hs.idle.raised e
    refine (ends_modify (Q := fun _ t => isRateLimited h w r s.limiter = .ok (refused, cache) ∧
      Fresh auth True t) ?_).bind fun _ => ends_when ?_ ?_
    · rintro t ⟨hlimit, rfl⟩
      exact ⟨hlimit, hs.trace, hs.auth, hs.sessionToken, trivial⟩
    · refine ((ends_send_idle _).pre ?_).bind fun _ => ends_exit fun t ht => ht
      rintro t ⟨-, -, ht⟩
      exact ht.idle
    · rintro t hnot ⟨hlimit, ht⟩
      rw [Bool.eq_false_iff.mpr hnot] at hlimit
      exact ⟨ht.trace, ht.auth, ht.sessionToken, fun _ => ⟨cache, hlimit⟩⟩
  · rintro s hnot ⟨-, hs⟩
    exact ⟨hs.trace, hs.auth, hs.sessionToken, fun hlimited => absurd hlimited hnot⟩

theorem ends_continueProcessing : Ends (Fresh auth C) (continueProcessing h w r)
    (fun goOn t => if goOn then Fresh auth (C ∧ r.method ∈ h.methods) t else Idle t) Idle := by
  have hsend (reply : Reply) {c : Prop} : Ends (fun s => c ∧ Fresh auth C s) (send w reply)
      (fun _ => Idle) Idle := (ends_send_idle reply).pre fun s hs => hs.2.idle
  refine ends_ite ?_ (ends_ite ?_ (ends_pure ?_))
  · exact (hsend _).bind fun _ => ends_pure fun s hs => hs
  · refine ((ends_send_idle _).pre ?_).bind fun _ => ends_pure fun s hs => hs
    exact fun s hs => hs.2.2.idle
  · rintro s ⟨hlisted, -, hs⟩
    exact ⟨hs.trace, hs.auth, hs.sessionToken, hs.holds, not_not.mp hlisted⟩

/-- What `IsAuthorized` leaves when it allows the request, and what it leaves at any rate. -/
structure Asked (h : Handler) (w : World V) (r : Request) (auth : AuthClient.State) (C : Prop)
    (a : Access) (s : Handling V) : Prop where
  idle : Idle s
  undisturbed : a.allowed = true → Undisturbed h w r s.trace
  authorized : a.allowed = true → C ∧ Authorized h w r auth

theorem ends_isValidAPIKEY : Ends (Fresh auth C) (isValidAPIKEY w r) (fun allowed t => Idle t ∧
    (allowed = true → t.trace = [] ∧ C ∧ r.find "X-API-KEY" = some w.myHash)) Idle := by
  unfold isValidAPIKEY
  split
  · rename_i key hkey
    refine ends_pure fun s hs => ⟨hs.idle, fun heq => ⟨hs.trace, hs.holds, ?_⟩⟩
    rw [hkey, beq_iff_eq.mp heq]
  · refine (ends_modify (Q := fun _ => Idle) fun s hs => hs.idle.raised _).bind fun _ => ?_
    exact ends_pure fun s hs => ⟨hs, fun heq => by cases heq⟩

theorem Undisturbed.of_nil : Undisturbed h w r [] := .inl fun e hmem => by cases hmem

theorem ends_authorizeInternal (hi : h.isInternal = true) (hn : r.has "X-INTERNAL-NAME" = true) :
    Ends (Fresh auth C) (authorizeInternal w r) (Asked h w r auth C) Idle := by
  refine ends_isValidAPIKEY.bind fun allowed => ?_
  refine Ends.bind (Q := fun _ => Asked h w r auth C { allowed, contacted := true })
    ?_ fun _ => ends_pure fun s hs => hs
  refine ends_when (ends_modify ?_) ?_
  · rintro s ⟨hallowed, hidle, hs⟩
    obtain ⟨htrace, hC, hk⟩ := hs hallowed
    exact ⟨hidle, fun _ => by rw [htrace]; exact .of_nil, fun _ => ⟨hC, .hash hi hn hk⟩⟩
  · rintro s hnot ⟨hidle, -⟩
    exact ⟨hidle, fun hallowed => absurd hallowed hnot, fun hallowed => absurd hallowed hnot⟩

@[simp] theorem accept_trace (s : Handling V) (v : AuthClient.Verdict) :
    (s.accept v).trace = s.trace := by
  unfold Handling.accept
  split <;> rfl

theorem ends_authorizeKey (he : h.isInternal = false) (hn : r.has "X-API-KEY" = true) :
    Ends (Fresh auth C) (authorizeKey w r) (Asked h w r auth C) Idle := by
  obtain ⟨key, hk⟩ := Option.isSome_iff_exists.mp hn
  have hget : r.get "X-API-KEY" "" = key := by rw [Request.get, hk, Option.getD_some]
  refine ends_get fun s hs => ?_
  refine (ends_modify (Q := fun _ t => t.trace = []) ?_).bind fun _ => ends_pure ?_
  · rintro t rfl
    simpa using hs.trace
  · intro t ht
    refine ⟨?_, ?_, ?_⟩
    · intro b hmem
      rw [ht] at hmem
      cases hmem
    · intro _
      rw [ht]
      exact .of_nil
    · intro hv
      simp only [hs.auth, hget] at hv
      exact ⟨hs.holds, .apiKey he hk hv⟩

theorem readToken_poco (hc : w.credentials r = .error .poco) (s : Handling V) :
    readToken w r s = (.value (), s.note (.raised .poco)) := by
  unfold readToken
  rw [hc]
  rfl

theorem readToken_std (hc : w.credentials r = .error .std) (s : Handling V) :
    readToken w r s = (.thrown .std, s.note (.raised .std)) := by
  unfold readToken
  rw [hc]
  rfl

theorem ends_readToken (hby : ByToken h r) : Ends (Fresh auth C) (readToken w r)
    (fun _ t => t.auth = auth ∧ C ∧ t.sessionToken = token w r ∧ Idle t ∧
      Undisturbed h w r t.trace) Idle := by
  unfold token
  split
  · rename_i scheme token hc
    refine ends_catching (R := fun _ => False) ?_ (fun s hs => hs.elim) fun s hs => hs.elim
    rw [hc]
    refine (ends_pure (Q := fun a t => a = (scheme, token) ∧ Fresh auth C t)
      fun s hs => ⟨rfl, hs⟩).bind ?_
    rintro ⟨scheme', token'⟩
    refine ends_when (ends_modify ?_) ?_
    · rintro s ⟨hscheme, heq, hs⟩
      cases heq
      rw [if_pos hscheme]
      refine ⟨hs.auth, hs.holds, rfl, hs.idle, ?_⟩
      rw [hs.trace]
      exact .of_nil
    · rintro s hscheme ⟨heq, hs⟩
      cases heq
      rw [if_neg hscheme]
      refine ⟨hs.auth, hs.holds, hs.sessionToken, hs.idle, ?_⟩
      rw [hs.trace]
      exact .of_nil
  · rename_i e hc
    intro s hs
    cases e with
    | poco =>
      rw [readToken_poco hc]
      refine ⟨hs.auth, hs.holds, hs.sessionToken, hs.idle.raised _, .inr ⟨?_, hc, hby⟩⟩
      simp only [Handling.note, hs.trace]
    | std =>
      rw [readToken_std hc]
      exact hs.idle.raised _

theorem ends_authorizeToken (hby : ByToken h r) :
    Ends (Fresh auth C) (authorizeToken h w r) (Asked h w r auth C) Idle := by
  refine ends_get fun s hs => ?_
  refine Ends.bind (Q := fun _ t => t.auth = auth ∧ C ∧ t.sessionToken = token w r ∧ Idle t ∧
    Undisturbed h w r t.trace) ?_ fun _ => ends_get ?_
  · refine ends_when ((ends_readToken hby).pre ?_) ?_
    · rintro t ⟨-, rfl⟩
      exact hs
    · exact fun t hne _ => absurd hs.sessionToken hne
  · rintro s ⟨hauth, hC, htoken, hidle, hun⟩
    refine (ends_modify (Q := fun _ t => t.trace = s.trace) ?_).bind fun _ => ends_pure ?_
    · rintro t rfl
      simp
    · intro t ht
      refine ⟨?_, ?_, ?_⟩
      · intro b
        rw [ht]
        exact hidle b
      · intro _
        rw [ht]
        exact hun
      · intro hv
        simp only [hauth, htoken] at hv
        exact ⟨hC, .bearer hby hv⟩

theorem ends_isAuthorized :
    Ends (Fresh auth C) (isAuthorized h w r) (Asked h w r auth C) Idle := by
  unfold isAuthorized
  split
  · rename_i hi
    exact ends_authorizeInternal hi.1 hi.2
  · rename_i hi
    split
    · rename_i he
      exact ends_authorizeKey (Bool.eq_false_iff.mpr he.1) he.2
    · rename_i he
      exact ends_authorizeToken ⟨hi, he⟩

/-- The request has `C`, and no body has run. -/
structure Ready (h : Handler) (w : World V) (r : Request) (C : Prop) (s : Handling V) : Prop where
  idle : Idle s
  undisturbed : Undisturbed h w r s.trace
  holds : C

theorem ends_refuse (a : Access) : Ends Idle (refuse w r a) (fun _ => Idle) Idle := by
  unfold refuse
  split
  · exact ends_send_idle _
  · split
    · exact ends_send_idle _
    · exact ends_send_idle _

theorem ends_authorize (hauthorize : h.alwaysAuthorize = true) :
    Ends (Fresh auth C) (authorize h w r)
      (fun _ => Ready h w r (C ∧ Authorized h w r auth)) Idle := by
  refine ends_when ?_ fun s hnot _ => absurd hauthorize hnot
  refine (ends_isAuthorized.pre fun s hs => hs.2).bind fun a => ends_when ?_ ?_
  · refine ((ends_refuse a).pre fun s hs => hs.2.idle).bind fun _ => ?_
    exact ends_exit fun s hs => hs
  · intro s hallowed hs
    have hallowed : a.allowed = true := not_not.mp hallowed
    exact ⟨hs.idle, hs.undisturbed hallowed, hs.authorized hallowed⟩

theorem ends_parseParameters :
    Ends (Ready h w r C) (parseParameters w r) (fun _ => Ready h w r C) Idle := by
  have hidle (s : Handling V) (e : Thrown) (hs : Ready h w r C s) : Idle (s.note (.raised e)) :=
    hs.idle.raised e
  refine (ends_attempt hidle).bind fun ⟨_, parameters⟩ => ?_
  refine (ends_modify (Q := fun _ => Ready h w r C) ?_).bind fun _ => ?_
  · rintro s ⟨-, hs⟩
    exact ⟨hs.idle, hs.undisturbed, hs.holds⟩
  · refine (ends_attempt hidle).bind fun _ => ends_modify ?_
    rintro s ⟨-, hs⟩
    exact ⟨hs.idle, hs.undisturbed, hs.holds⟩

theorem guarded_invoked {s : Handling V} {b : Body} (hs : Idle s)
    (hb : Passed h w r limiter auth b) (hbefore : before s.trace) :
    Guarded h w r before limiter auth (.invoked b :: s.trace) := by
  have hsuffix {b' : Body} {earlier : List Act}
      (hsuf : .invoked b' :: earlier <:+ .invoked b :: s.trace) : b' = b ∧ earlier = s.trace := by
    rcases List.suffix_cons_iff.mp hsuf with heq | hsuf
    · simpa using heq
    · exact absurd (hsuf.subset List.mem_cons_self) (hs b')
  constructor
  · intro b' earlier hsuf
    rw [(hsuffix hsuf).2]
    exact hs
  · intro b' earlier hsuf
    obtain ⟨rfl, rfl⟩ := hsuffix hsuf
    exact ⟨hb, hbefore⟩

theorem Guarded.note {trace : List Act} {a : Act}
    (ht : Guarded h w r before limiter auth trace) (ha : ∀ b, a ≠ .invoked b) :
    Guarded h w r before limiter auth (a :: trace) := by
  have hsuffix {b : Body} {earlier : List Act} (hsuf : .invoked b :: earlier <:+ a :: trace) :
      .invoked b :: earlier <:+ trace := by
    rcases List.suffix_cons_iff.mp hsuf with heq | hsuf
    · exact absurd (List.cons.inj heq).1.symm (ha b)
    · exact hsuf
  exact ⟨fun b earlier hsuf => ht.once b earlier (hsuffix hsuf),
    fun b earlier hsuf => ht.passed b earlier (hsuffix hsuf)⟩

theorem ends_invoke {b : Body} (hb : C → Passed h w r limiter auth b) :
    Ends (Ready h w r C) (invoke w b)
      (fun _ t => Guarded h w r (Undisturbed h w r) limiter auth t.trace)
      (fun t => Guarded h w r (Undisturbed h w r) limiter auth t.trace) := by
  refine (ends_modify (Q := fun _ t => Guarded h w r (Undisturbed h w r) limiter auth t.trace)
    fun s hs => guarded_invoked hs.idle (hb hs.holds) hs.undisturbed).bind fun _ => ?_
  refine (ends_attempt fun s e hs => hs.note (by simp)).post ?_
  exact fun _ s hs => hs.2

theorem ends_dispatch (hpassed : C → ∀ b, r.method = b.method → Passed h w r limiter auth b) :
    Ends (Ready h w r C) (dispatch w r)
      (fun _ t => Guarded h w r (Undisturbed h w r) limiter auth t.trace)
      (fun t => Guarded h w r (Undisturbed h w r) limiter auth t.trace) := by
  have hinvoke (b : Body) (hm : r.method = b.method) := ends_invoke fun hC => hpassed hC b hm
  unfold dispatch
  split
  · exact hinvoke .doGet ‹_›
  · split
    · exact hinvoke .doPost ‹_›
    · split
      · exact hinvoke .doDelete ‹_›
      · split
        · exact hinvoke .doPut ‹_›
        · intro s hs
          exact (ends_send_idle _ s hs.idle).mono (fun _ _ => Idle.guarded) fun _ => Idle.guarded

theorem ends_handleRequest (hauthorize : h.alwaysAuthorize = true) :
    Ends (Start limiter auth) (handleRequest h w r)
      (fun _ t => Guarded h w r (Undisturbed h w r) limiter auth t.trace)
      (fun t => Guarded h w r (Undisturbed h w r) limiter auth t.trace) := by
  refine ends_catching ?_ ?_ fun s hs => hs
  · refine (ends_parseBody.early fun _ => Idle.guarded).bind fun _ => ?_
    refine (ends_limitRate.early fun _ => Idle.guarded).bind fun _ => ?_
    refine (ends_continueProcessing.early fun _ => Idle.guarded).bind fun goOn => ?_
    refine Ends.bind (Q := fun _ => Fresh auth (Allowed h w r limiter ∧ r.method ∈ h.methods))
      (ends_when (ends_exit ?_) ?_) fun _ => ?_
    · rintro s ⟨hnot, hs⟩
      rw [if_neg hnot] at hs
      exact Idle.guarded hs
    · intro s hgoOn hs
      rwa [if_pos (not_not.mp hgoOn)] at hs
    refine ((ends_authorize hauthorize).early fun _ => Idle.guarded).bind fun _ => ?_
    refine (ends_parseParameters.early fun _ => Idle.guarded).bind fun _ => ?_
    refine ends_dispatch ?_
    rintro ⟨⟨hallowed, hlisted⟩, hauthorized⟩ b hmethod
    exact ⟨hmethod, hlisted, hallowed, hauthorized⟩
  · exact ends_send (fun _ _ hs ha => hs.note ha) _

/-- The state of a handler that the factory has just built. -/
def start (limiter : RateCache) (auth : AuthClient.State) : Handling V := { limiter, auth }

/-- A handler that authorizes runs one body at most, for a request that has passed the limiter, the
list of methods and one of the three ways of `IsAuthorized`. An exception keeps the body from
running, unless it says that the credentials are missing. -/
theorem handleRequest_guarded (h : Handler) (hauthorize : h.alwaysAuthorize = true) (w : World V)
    (r : Request) (limiter : RateCache) (auth : AuthClient.State) :
    Guarded h w r (Undisturbed h w r) limiter auth
      (handleRequest h w r (start limiter auth)).2.trace := by
  have hstart : Start limiter auth (start limiter auth : Handling V) :=
    ⟨rfl, rfl, rfl, rfl, trivial⟩
  have hends := ends_handleRequest (w := w) (r := r) hauthorize _ hstart
  exact hends.always (fun _ _ ht => ht) fun _ ht => ht

def getter : Handler := { methods := ["GET"] }

def aRequest : Request := { method := "GET", uri := "/api/v1/status" }

/-- The security service accepts the token that it is asked about. -/
def accepting (credentials : Except Thrown (String × String)) : World Unit where
  contentLength _ := .ok (-1)
  parse _ := .ok ()
  uri _ := .ok ("/api/v1/status", [])
  credentials _ := credentials
  strHash _ := 0
  sends _ := .ok ()
  clock := 0
  now := 50
  myHash := "hash"
  apiKeyAnswer := .refused
  tokenAnswer _ := .ok (some ⟨true, true, { webtoken := { created := 0, expiresIn := 100 } }⟩)
  body _ := .ok ()

def bearerWorld : World Unit := accepting (.ok ("Bearer", "token"))

def bareWorld : World Unit := accepting (.error .poco)

theorem handleRequest_guarded_bearer :
    Act.invoked .doGet ∈
      (handleRequest getter bearerWorld aRequest (start (fun _ => none) {})).2.trace ∧
    Guarded getter bearerWorld aRequest (Undisturbed getter bearerWorld aRequest)
      (fun _ => none) {}
      (handleRequest getter bearerWorld aRequest (start (fun _ => none) {})).2.trace :=
  ⟨List.mem_cons_self, handleRequest_guarded getter rfl bearerWorld aRequest (fun _ => none) {}⟩

theorem bare_trace : (handleRequest getter bareWorld aRequest (start (fun _ => none) {})).2.trace =
    [.invoked .doGet, .raised .poco] := rfl

/-- Without credentials, an exception is caught, and the body runs if the empty token is good. -/
theorem empty_token_served : ¬ ∀ (h : Handler) (w : World Unit) (r : Request)
    (limiter : RateCache) (auth : AuthClient.State), h.alwaysAuthorize = true →
    Guarded h w r Unraised limiter auth (handleRequest h w r (start limiter auth)).2.trace := by
  intro hall
  have hguarded := hall getter bareWorld aRequest (fun _ => none) {} rfl
  rw [bare_trace] at hguarded
  have hquiet := (hguarded.passed .doGet [.raised .poco] (List.suffix_refl _)).2
  exact hquiet .poco List.mem_cons_self

end Owls.RESTAPIHandler
