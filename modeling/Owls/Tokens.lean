import Owls.AuthClient

/-!
# Session tokens

`IsAuthorized` on any number of threads. The look at the cache, the answer of the security
service and the update of the cache are steps of their own, and a token may be revoked between
any two of them.
-/

open Machine

namespace Owls.AuthClient

/-! ## The functions -/

def State.updateToken (s : State) (token : String) (info : UserInfoAndPolicy) : State :=
  { s with cache := Function.update s.cache token (some info) }

def isTokenExpired (now : UInt64) (t : WebToken) : Bool := t.expiresIn + t.created < now

/-- Where a token is validated. -/
def endpoint (sub : Bool) : String :=
  if sub then "/api/v1/validateSubToken" else "/api/v1/validateToken"

/-- The JSON document of an `HTTP_OK` answer. `info` is the caller's `UInfo` after `from_json`. -/
structure TokenResponse where
  tokenInfo : Bool
  userInfo : Bool
  info : UserInfoAndPolicy

/-- What `Req.Do` gives for a request to `endpoint`. -/
inductive TokenAnswer where
  | throws
  | gatewayTimeout
  | refused
  | ok (response : Option TokenResponse)

/-- The information of an answer that is `HTTP_OK` and complete. -/
def TokenAnswer.info? : TokenAnswer → Option UserInfoAndPolicy
  | .ok (some r) => if r.tokenInfo && r.userInfo then some r.info else none
  | _ => none

/-- What `RetrieveTokenInformation` makes of the answer, and what it caches. -/
def received (now : UInt64) : TokenAnswer → Verdict × Option UserInfoAndPolicy
  | .throws => ({ valid := false, expired := some false, asked := true }, none)
  | .gatewayTimeout => ({ valid := false, contacted := some false, asked := true }, none)
  | .refused | .ok none =>
    ({ valid := false, expired := some false, contacted := some true, asked := true }, none)
  | .ok (some r) =>
    if r.tokenInfo && r.userInfo then
      if isTokenExpired now r.info.webtoken then
        ({ valid := false, info := some r.info, expired := some true, contacted := some true,
           asked := true }, none)
      else
        ({ valid := true, info := some r.info, expired := some false, contacted := some true,
           asked := true }, some r.info)
    else ({ valid := false, contacted := some true, asked := true }, none)

/-- What `IsAuthorized` answers from the cache, if it does. -/
def lookup (s : State) (token : String) (now : UInt64) : Option Verdict :=
  (s.cache token).map fun user =>
    if isTokenExpired now user.webtoken then { valid := false, expired := some true }
    else { valid := true, info := some user, expired := some false }

def retrieveTokenInformation (s : State) (token : String) (now : UInt64) (a : TokenAnswer) :
    Verdict × State :=
  match received now a with
  | (v, some info) => (v, s.updateToken token info)
  | (v, none) => (v, s)

/-- `IsAuthorized`, when nothing comes between its steps. -/
def isAuthorized (s : State) (token : String) (now : UInt64) (a : TokenAnswer) : Verdict × State :=
  match lookup s token now with
  | some v => (v, if v.valid then s else s.removeToken token)
  | none => retrieveTokenInformation s token now a

/-! ## The machine -/

/-- Where a thread is in its call of `IsAuthorized`. -/
inductive Call where
  | idle
  | asking (token : String) (sub : Bool)
  /-- It has accepted the answer, at `now`, and is about to cache it. -/
  | filling (token : String) (sub : Bool) (info : UserInfoAndPolicy) (now : UInt64)
  | evicting (token : String)

/-- What the security service and the bus have said about tokens. -/
inductive Note where
  | answered (token : String) (sub : Bool) (path : String) (info : UserInfoAndPolicy)
  | removed (token : String)

structure Threads where
  auth : State := {}
  calls : Nat → Call := fun _ => .idle
  /-- The latest first. -/
  notes : List Note := []

inductive TokenEvent where
  /-- A thread calls `IsAuthorized`, and looks at the cache. -/
  | isAuthorized (k : Nat) (token : String) (sub : Bool) (now : UInt64)
  | answer (k : Nat) (now : UInt64) (a : TokenAnswer)
  | fill (k : Nat)
  | evict (k : Nat)
  | removedCachedToken (token : String)
  | dropped (token : String)

def Threads.become (s : Threads) (k : Nat) (c : Call) : Threads :=
  { s with calls := Function.update s.calls k c }

def Threads.note (s : Threads) (n : Option Note) : Threads :=
  { s with notes := n.toList ++ s.notes }

def tokenStep (s : Threads) : TokenEvent → Option Threads
  | .isAuthorized k token sub now =>
    match s.calls k, lookup s.auth token now with
    | .idle, none => some (s.become k (.asking token sub))
    | .idle, some v => some (if v.valid then s else s.become k (.evicting token))
    | _, _ => none
  | .answer k now a =>
    match s.calls k with
    | .asking token sub =>
      let s := s.note (a.info?.map (.answered token sub (endpoint sub)))
      match (received now a).2 with
      | some info => some (s.become k (.filling token sub info now))
      | none => some (s.become k .idle)
    | _ => none
  | .fill k =>
    match s.calls k with
    | .filling token _ info _ =>
      some { s.become k .idle with auth := s.auth.updateToken token info }
    | _ => none
  | .evict k =>
    match s.calls k with
    | .evicting token => some { s.become k .idle with auth := s.auth.removeToken token }
    | _ => none
  | .removedCachedToken token =>
    some { s.note (some (.removed token)) with auth := AuthClient.removedCachedToken s.auth token }
  | .dropped token => some { s with auth := s.auth.removeToken token }

@[simp] theorem become_calls (s : Threads) (k : Nat) (c : Call) :
    (s.become k c).calls = Function.update s.calls k c := rfl

@[simp] theorem become_auth (s : Threads) (k : Nat) (c : Call) : (s.become k c).auth = s.auth := rfl

@[simp] theorem become_notes (s : Threads) (k : Nat) (c : Call) :
    (s.become k c).notes = s.notes := rfl

@[simp] theorem note_calls (s : Threads) (n : Option Note) : (s.note n).calls = s.calls := rfl

@[simp] theorem note_auth (s : Threads) (n : Option Note) : (s.note n).auth = s.auth := rfl

@[simp] theorem note_notes (s : Threads) (n : Option Note) :
    (s.note n).notes = n.toList ++ s.notes := rfl

theorem received_accepts {now : UInt64} {a : TokenAnswer} {info : UserInfoAndPolicy}
    (h : (received now a).2 = some info) :
    a.info? = some info ∧ (received now a).1.valid = true ∧
      isTokenExpired now info.webtoken = false := by
  unfold received at h ⊢
  split at h <;> try cases h
  split at h <;> try cases h
  split at h <;> cases h
  rename_i hboth hexpired
  simp [TokenAnswer.info?, hboth, Bool.eq_false_iff.mpr hexpired]

theorem retrieveTokenInformation_snd (s : State) (token : String) (now : UInt64)
    (a : TokenAnswer) : (retrieveTokenInformation s token now a).2 =
      ((received now a).2.map (s.updateToken token)).getD s := by
  unfold retrieveTokenInformation
  split <;> simp_all

theorem isAuthorized_alone (s : Threads) (k : Nat) (token : String) (sub : Bool) (now : UInt64)
    (a : TokenAnswer) (hidle : s.calls k = .idle) :
    ∃ es t, run tokenStep s (.isAuthorized k token sub now :: es) = some t ∧
      t.calls k = .idle ∧ t.auth = (isAuthorized s.auth token now a).2 := by
  cases hl : lookup s.auth token now with
  | some v =>
    by_cases hv : v.valid = true
    · refine ⟨[], s, ?_, hidle, ?_⟩
      · simp [tokenStep, hidle, hl, hv]
      · simp [isAuthorized, hl, hv]
    · refine ⟨[.evict k], _, by simp [tokenStep, hidle, hl, hv]; rfl, by simp, ?_⟩
      simp [isAuthorized, hl, hv]
  | none =>
    cases hr : (received now a).2 with
    | none =>
      refine ⟨[.answer k now a], _, by simp [tokenStep, hidle, hl, hr]; rfl, by simp, ?_⟩
      simp [isAuthorized, hl, retrieveTokenInformation_snd, hr]
    | some info =>
      refine ⟨[.answer k now a, .fill k], _, by simp [tokenStep, hidle, hl, hr]; rfl, by simp, ?_⟩
      simp [isAuthorized, hl, retrieveTokenInformation_snd, hr]

inductive TokenStepped (s : Threads) : TokenEvent → Threads → Prop where
  | found {k : Nat} {token : String} {sub : Bool} {now : UInt64} :
    TokenStepped s (.isAuthorized k token sub now) s
  | asking {k : Nat} {token : String} {sub : Bool} {now : UInt64} :
    TokenStepped s (.isAuthorized k token sub now) (s.become k (.asking token sub))
  | evicting {k : Nat} {token : String} {sub : Bool} {now : UInt64} :
    TokenStepped s (.isAuthorized k token sub now) (s.become k (.evicting token))
  | accepted {k : Nat} {token : String} {sub : Bool} {now : UInt64} {a : TokenAnswer}
    {info : UserInfoAndPolicy} (hk : s.calls k = .asking token sub)
    (hr : (received now a).2 = some info) :
    TokenStepped s (.answer k now a)
      ((s.note (a.info?.map (.answered token sub (endpoint sub)))).become k
        (.filling token sub info now))
  | refused {k : Nat} {token : String} {sub : Bool} {now : UInt64} {a : TokenAnswer} :
    TokenStepped s (.answer k now a)
      ((s.note (a.info?.map (.answered token sub (endpoint sub)))).become k .idle)
  | filled {k : Nat} {token : String} {sub : Bool} {info : UserInfoAndPolicy} {now : UInt64}
    (hk : s.calls k = .filling token sub info now) :
    TokenStepped s (.fill k) { s.become k .idle with auth := s.auth.updateToken token info }
  | evicted {k : Nat} {token : String} (hk : s.calls k = .evicting token) :
    TokenStepped s (.evict k) { s.become k .idle with auth := s.auth.removeToken token }
  | removed (token : String) :
    TokenStepped s (.removedCachedToken token)
      { s.note (some (.removed token)) with auth := AuthClient.removedCachedToken s.auth token }
  | dropped (token : String) :
    TokenStepped s (.dropped token) { s with auth := s.auth.removeToken token }

theorem stepped_of_tokenStep {s u : Threads} {e : TokenEvent} (hu : tokenStep s e = some u) :
    TokenStepped s e u := by
  cases e with
  | isAuthorized k token sub now =>
    simp only [tokenStep] at hu
    split at hu <;> cases hu
    · exact .asking
    · split
      · exact .found
      · exact .evicting
  | answer k now a =>
    simp only [tokenStep] at hu
    split at hu <;> try cases hu
    split at hu <;> cases hu
    · exact .accepted ‹_› ‹_›
    · exact .refused
  | fill k =>
    simp only [tokenStep] at hu
    split at hu <;> cases hu
    exact .filled ‹_›
  | evict k =>
    simp only [tokenStep] at hu
    split at hu <;> cases hu
    exact .evicted ‹_›
  | removedCachedToken token =>
    cases hu
    exact .removed token
  | dropped token =>
    cases hu
    exact .dropped token

/-! ## Answers -/

/-- `created_ + expires_in_ >= now`, on numbers. -/
def Lasts (info : UserInfoAndPolicy) (now : UInt64) : Prop :=
  now.toNat ≤ info.webtoken.created.toNat + info.webtoken.expiresIn.toNat

/-- A call that accepts has the answer of its own endpoint. -/
structure Asked (s : Threads) : Prop where
  filling : ∀ k token sub info now, s.calls k = .filling token sub info now →
    .answered token sub (endpoint sub) info ∈ s.notes ∧ Lasts info now

theorem lasts_of_not_expired {info : UserInfoAndPolicy} {now : UInt64}
    (h : isTokenExpired now info.webtoken = false) : Lasts info now := by
  have hle : now ≤ info.webtoken.expiresIn + info.webtoken.created := by
    simpa [isTokenExpired] using h
  have hsum := UInt64.le_iff_toNat_le.mp hle
  rw [UInt64.toNat_add] at hsum
  unfold Lasts
  omega

theorem asked_start : Asked {} where
  filling k token sub info now h := by cases h

theorem Asked.become {s : Threads} (h : Asked s) (k : Nat) {c : Call}
    (hc : ∀ token sub info now, c = .filling token sub info now →
      .answered token sub (endpoint sub) info ∈ s.notes ∧ Lasts info now) :
    Asked (s.become k c) where
  filling k' token sub info now hk' := by
    by_cases hk : k' = k
    · exact hc token sub info now (by simpa [hk] using hk')
    · exact h.filling k' token sub info now (by simpa [hk] using hk')

theorem Asked.note {s : Threads} (h : Asked s) (n : Option Note) : Asked (s.note n) where
  filling k token sub info now hk :=
    (h.filling k token sub info now hk).imp_left fun hmem => List.mem_append_right _ hmem

theorem Asked.auth {s : Threads} (h : Asked s) (auth : State) : Asked { s with auth := auth } where
  filling := h.filling

theorem asked_step (s : Threads) (e : TokenEvent) (u : Threads) (h : Asked s)
    (hu : tokenStep s e = some u) : Asked u := by
  have hfree (k : Nat) {c : Call} (hc : ∀ token sub info now, c ≠ .filling token sub info now) :
      Asked (s.become k c) := h.become k fun _ _ _ _ heq => absurd heq (hc _ _ _ _)
  cases stepped_of_tokenStep hu with
  | found => exact h
  | asking | evicting => exact hfree _ (by simp)
  | accepted _ hr =>
    obtain ⟨hinfo, -, hlive⟩ := received_accepts hr
    refine (h.note _).become _ fun t b other now' heq => ?_
    cases heq
    exact ⟨by simp [hinfo], lasts_of_not_expired hlive⟩
  | refused => exact (h.note _).become _ fun _ _ _ _ heq => by cases heq
  | filled | evicted => exact (hfree _ (by simp)).auth _
  | removed token => exact (h.note _).auth _
  | dropped token => exact h.auth _

/-! ## Revocation -/

/-- The `OK` answers for a token since it was last revoked. -/
def since (token : String) : List Note → List UserInfoAndPolicy
  | [] => []
  | .answered t _ _ info :: ns => if t = token then info :: since token ns else since token ns
  | .removed t :: ns => if t = token then [] else since token ns

/-- Whatever `IsAuthorized` accepts at `now` has an `OK` answer that lasts until `now`. For a
token found in the cache, the token has not been revoked since; a call that asked has that
answer itself. -/
structure Trusted (s : Threads) : Prop where
  cached : ∀ token now v, lookup s.auth token now = some v → v.valid = true →
    ∃ info ∈ since token s.notes, Lasts info now
  asked : ∀ k token sub info now, s.calls k = .filling token sub info now →
    .answered token sub (endpoint sub) info ∈ s.notes ∧ Lasts info now

/-- A call caches an answer only while some answer that lasts as long is not revoked. -/
def Current (s : Threads) : TokenEvent → Prop
  | .fill k => ∀ token sub info now, s.calls k = .filling token sub info now →
      ∃ other ∈ since token s.notes, Lasts other (info.webtoken.expiresIn + info.webtoken.created)
  | _ => True

theorem lookup_accepts_iff {s : State} {token : String} {now : UInt64} :
    (∃ v, lookup s token now = some v ∧ v.valid = true) ↔
      ∃ user, s.cache token = some user ∧
        now ≤ user.webtoken.expiresIn + user.webtoken.created := by
  unfold lookup isTokenExpired
  cases hc : s.cache token with
  | none => simp
  | some user =>
    by_cases hlt : user.webtoken.expiresIn + user.webtoken.created < now
    · simp [hlt]
    · simpa [hlt] using UInt64.not_lt.mp hlt

/-- Each entry has an answer that lasts as long, and is not revoked. -/
def Backed (s : State) (notes : List Note) : Prop :=
  ∀ token user, s.cache token = some user → ∃ info ∈ since token notes,
    Lasts info (user.webtoken.expiresIn + user.webtoken.created)

theorem backed_iff {s : State} {notes : List Note} :
    Backed s notes ↔ ∀ token now v, lookup s token now = some v → v.valid = true →
      ∃ info ∈ since token notes, Lasts info now := by
  constructor
  · intro h token now v hv hvalid
    obtain ⟨user, hc, hle⟩ := lookup_accepts_iff.mp ⟨v, hv, hvalid⟩
    obtain ⟨info, hmem, hlast⟩ := h token user hc
    have hle := UInt64.le_iff_toNat_le.mp hle
    exact ⟨info, hmem, le_trans hle hlast⟩
  · intro h token user hc
    obtain ⟨v, hv, hvalid⟩ := lookup_accepts_iff.mpr ⟨user, hc, UInt64.le_refl _⟩
    exact h token _ v hv hvalid

theorem Trusted.backed {s : Threads} (h : Trusted s) : Backed s.auth s.notes :=
  backed_iff.mpr h.cached

theorem Backed.removeToken {s : State} {notes : List Note} (h : Backed s notes) (token : String) :
    Backed (s.removeToken token) notes := by
  intro t user hc
  by_cases heq : t = token
  · simp [State.removeToken, heq] at hc
  · exact h t user (by simpa [State.removeToken, heq] using hc)

theorem Backed.removed {s : State} {notes : List Note} (h : Backed s notes) (token : String) :
    Backed (AuthClient.removedCachedToken s token) (.removed token :: notes) := by
  intro t user hc
  by_cases heq : t = token
  · simp [AuthClient.removedCachedToken, State.removeApiKey, State.removeToken, heq] at hc
  · have hs : since t (.removed token :: notes) = since t notes := by simp [since, Ne.symm heq]
    rw [hs]
    refine h t user ?_
    simpa [AuthClient.removedCachedToken, State.removeApiKey, State.removeToken, heq] using hc

theorem since_subset (token t : String) (sub : Bool) (path : String) (info : UserInfoAndPolicy)
    (notes : List Note) : since token notes ⊆ since token (.answered t sub path info :: notes) := by
  by_cases h : t = token <;> simp [since, h]

theorem Backed.answered {s : State} {notes : List Note} (h : Backed s notes) (t : String)
    (sub : Bool) (path : String) (info : UserInfoAndPolicy) :
    Backed s (.answered t sub path info :: notes) := by
  intro token user hc
  obtain ⟨other, hmem, hlast⟩ := h token user hc
  exact ⟨other, since_subset _ _ _ _ _ _ hmem, hlast⟩

theorem Backed.update_iff {s : State} {notes : List Note} (h : Backed s notes) (token : String)
    (info : UserInfoAndPolicy) : Backed (s.updateToken token info) notes ↔
      ∃ other ∈ since token notes,
        Lasts other (info.webtoken.expiresIn + info.webtoken.created) := by
  constructor
  · exact fun hu => hu token info (by simp [State.updateToken])
  · intro hother t user hc
    by_cases heq : t = token
    · subst heq
      obtain rfl : info = user := by simpa [State.updateToken] using hc
      exact hother
    · exact h t user (by simpa [State.updateToken, heq] using hc)

theorem backed_step (s : Threads) (e : TokenEvent) (u : Threads) (h : Backed s.auth s.notes)
    (hu : tokenStep s e = some u) : Backed u.auth u.notes ↔ Current s e := by
  have hanswered (token : String) (sub : Bool) (info : Option UserInfoAndPolicy) :
      Backed s.auth ((info.map (Note.answered token sub (endpoint sub))).toList ++ s.notes) := by
    cases info with
    | none => exact h
    | some info => exact h.answered token sub (endpoint sub) info
  cases stepped_of_tokenStep hu with
  | found | asking | evicting => exact iff_of_true h trivial
  | accepted | refused => exact iff_of_true (hanswered _ _ _) trivial
  | @filled k token sub info now hk =>
    refine (h.update_iff token info).trans ?_
    constructor
    · intro hother t b i n heq
      cases hk.symm.trans heq
      exact hother
    · exact fun hc => hc token sub info now hk
  | evicted | dropped => exact iff_of_true (h.removeToken _) trivial
  | removed token => exact iff_of_true (h.removed token) trivial

/-- `IsAuthorized` never accepts a revoked token exactly as long as every update of the cache
comes before a revocation of what it caches. -/
theorem trusted_iff_current (es : List TokenEvent) :
    Always tokenStep Trusted {} es ↔ Steps tokenStep Current {} es := by
  refine always_iff_steps (J := Asked) (I := Trusted) asked_start ?_ asked_step
    (fun _ h => h) ?_ ?_ es
  · refine ⟨?_, asked_start.filling⟩
    intro token now v hv
    cases hv
  · intro s e u ha hs hc hu
    have hbacked := (backed_step s e u hs.backed hu).mpr hc
    exact ⟨backed_iff.mp hbacked, (asked_step s e u ha hu).filling⟩
  · intro s e u _ hs hu ht
    exact (backed_step s e u hs.backed hu).mp ht.backed

def goodToken : TokenAnswer := .ok (some ⟨true, true, { webtoken := { expiresIn := 100 } }⟩)

/-- The token is revoked after the answer, and the update of the cache brings it back. -/
theorem revoked_token_accepted : ¬ ∀ es, Always tokenStep Trusted {} es := by
  intro h
  have hlast := (h [.isAuthorized 0 "token" false 50, .answer 0 50 goodToken,
    .removedCachedToken "token", .fill 0]).here rfl
  obtain ⟨info, hmem, -⟩ := hlast.cached "token" 60 _ rfl rfl
  exact absurd hmem (by simp [since, goodToken, TokenAnswer.info?])

/-! ## The two kinds of tokens -/

/-- The call is answered from the cache, and accepted. -/
def Hits (s : Threads) (k : Nat) (token : String) (now : UInt64) : Prop :=
  s.calls k = .idle ∧ ∃ v, lookup s.auth token now = some v ∧ v.valid = true

/-- The endpoint at `path` has given an `OK` answer for the token. -/
def Validated (s : Threads) (token path : String) : Prop :=
  ∃ sub info, .answered token sub path info ∈ s.notes

/-- An accepted call has its token validated at the endpoint for its kind. -/
def Separate (s : Threads) : TokenEvent → Prop
  | .isAuthorized k token sub now => Hits s k token now →
      Validated s token (if sub then "/api/v1/validateSubToken" else "/api/v1/validateToken")
  | .fill k => ∀ token sub info now, s.calls k = .filling token sub info now →
      Validated s token (if sub then "/api/v1/validateSubToken" else "/api/v1/validateToken")
  | _ => True

/-- The threads, and which kind of call has put each entry of the cache there. -/
structure Kinds where
  threads : Threads := {}
  cachedBy : String → Option (Bool × UserInfoAndPolicy) := fun _ => none

def cachedAfter (s : Kinds) : TokenEvent → String → Option (Bool × UserInfoAndPolicy)
  | .fill k =>
    match s.threads.calls k with
    | .filling token sub info _ => Function.update s.cachedBy token (some (sub, info))
    | _ => s.cachedBy
  | .evict k =>
    match s.threads.calls k with
    | .evicting token => Function.update s.cachedBy token none
    | _ => s.cachedBy
  | .removedCachedToken token | .dropped token => Function.update s.cachedBy token none
  | .isAuthorized .. | .answer .. => s.cachedBy

def kindStep (s : Kinds) (e : TokenEvent) : Option Kinds :=
  (tokenStep s.threads e).map fun t => ⟨t, cachedAfter s e⟩

/-- A call that finds an entry which is not expired is of the kind that has cached it. -/
def OwnFills (s : Kinds) : TokenEvent → Prop
  | .isAuthorized _ token sub now => ∀ kind info, s.cachedBy token = some (kind, info) →
      isTokenExpired now info.webtoken = false → kind = sub
  | _ => True

/-- The call is accepted on what the endpoint for the other kind has answered. -/
def Crossed (s : Threads) (token : String) (sub : Bool) (now : UInt64) : Prop :=
  ∃ v info, lookup s.auth token now = some v ∧ v.valid = true ∧ v.info = some info ∧
    .answered token (!sub) (endpoint (!sub)) info ∈ s.notes

/-- The record is one of the cache, and each entry has the answer that its kind of call got. -/
structure Vouched (s : Kinds) : Prop where
  asked : Asked s.threads
  cached : ∀ token, s.threads.auth.cache token = (s.cachedBy token).map (·.2)
  answered : ∀ token kind info, s.cachedBy token = some (kind, info) →
    .answered token kind (endpoint kind) info ∈ s.threads.notes

theorem vouched_start : Vouched {} where
  asked := asked_start
  cached _ := rfl
  answered _ _ _ h := by cases h

theorem notes_grow {s u : Threads} {e : TokenEvent} (hu : tokenStep s e = some u) :
    s.notes ⊆ u.notes := by
  cases stepped_of_tokenStep hu with
  | found | asking | evicting | filled | evicted | dropped => exact List.Subset.refl _
  | accepted | refused | removed => exact List.subset_append_right _ _

theorem cached_step (s : Kinds) (e : TokenEvent) (u : Threads)
    (h : ∀ token, s.threads.auth.cache token = (s.cachedBy token).map (·.2))
    (hu : tokenStep s.threads e = some u) (token : String) :
    u.auth.cache token = (cachedAfter s e token).map (·.2) := by
  cases stepped_of_tokenStep hu with
  | found | asking | evicting | accepted | refused => exact h token
  | @filled _ t _ _ _ hk =>
    by_cases heq : token = t
    · simp [cachedAfter, hk, State.updateToken, heq]
    · simpa [cachedAfter, hk, State.updateToken, heq] using h token
  | @evicted _ t hk =>
    by_cases heq : token = t
    · simp [cachedAfter, hk, State.removeToken, heq]
    · simpa [cachedAfter, hk, State.removeToken, heq] using h token
  | removed t | dropped t =>
    by_cases heq : token = t
    · simp [cachedAfter, AuthClient.removedCachedToken, State.removeApiKey, State.removeToken, heq]
    · simpa [cachedAfter, AuthClient.removedCachedToken, State.removeApiKey, State.removeToken,
        heq] using h token

theorem answered_step (s : Kinds) (e : TokenEvent) (u : Threads) (hs : Vouched s)
    (hu : tokenStep s.threads e = some u) (token : String) (kind : Bool) (info : UserInfoAndPolicy)
    (h : cachedAfter s e token = some (kind, info)) :
    .answered token kind (endpoint kind) info ∈ s.threads.notes := by
  have hremoved (t : String) (h : Function.update s.cachedBy t none token = some (kind, info)) :
      .answered token kind (endpoint kind) info ∈ s.threads.notes := by
    by_cases heq : token = t
    · simp [heq] at h
    · exact hs.answered token kind info (by simpa [heq] using h)
  cases stepped_of_tokenStep hu with
  | found | asking | evicting | accepted | refused => exact hs.answered token kind info h
  | @filled k t sub other now hk =>
    simp only [cachedAfter, hk] at h
    by_cases heq : token = t
    · subst heq
      rw [Function.update_self] at h
      cases h
      exact (hs.asked.filling k token kind info now hk).1
    · exact hs.answered token kind info (by simpa [heq] using h)
  | evicted hk =>
    simp only [cachedAfter, hk] at h
    exact hremoved _ h
  | removed t | dropped t => exact hremoved t h

theorem vouched_step (s : Kinds) (e : TokenEvent) (u : Kinds) (h : Vouched s)
    (hu : kindStep s e = some u) : Vouched u := by
  obtain ⟨t, ht, rfl⟩ := Option.map_eq_some_iff.mp hu
  refine ⟨asked_step s.threads e t h.asked ht, cached_step s e t h.cached ht, ?_⟩
  intro token kind info hcached
  exact notes_grow ht (answered_step s e t h ht token kind info hcached)

theorem Vouched.hit {s : Kinds} (hs : Vouched s) {token : String} {now : UInt64} {v : Verdict}
    (hv : lookup s.threads.auth token now = some v) (hvalid : v.valid = true) :
    ∃ kind info, s.cachedBy token = some (kind, info) ∧ isTokenExpired now info.webtoken = false ∧
      .answered token kind (endpoint kind) info ∈ s.threads.notes := by
  obtain ⟨user, hcache, hle⟩ := lookup_accepts_iff.mp ⟨v, hv, hvalid⟩
  rw [hs.cached] at hcache
  obtain ⟨⟨kind, info⟩, hcached, rfl⟩ := Option.map_eq_some_iff.mp hcache
  refine ⟨kind, info, hcached, ?_, hs.answered token kind info hcached⟩
  exact decide_eq_false (UInt64.not_lt.mpr hle)

theorem Vouched.separate {s : Kinds} (hs : Vouched s) {e : TokenEvent} (h : OwnFills s e) :
    Separate s.threads e := by
  cases e with
  | isAuthorized k token sub now =>
    rintro ⟨-, v, hv, hvalid⟩
    obtain ⟨kind, info, hcached, hlive, hmem⟩ := hs.hit hv hvalid
    obtain rfl := h kind info hcached hlive
    exact ⟨kind, info, hmem⟩
  | fill k =>
    intro token sub info now hk
    exact ⟨sub, info, (hs.asked.filling k token sub info now hk).1⟩
  | answer | evict | removedCachedToken | dropped => trivial

theorem Vouched.crossed {s : Kinds} (hs : Vouched s) {k : Nat} {token : String} {sub : Bool}
    {now : UInt64} (h : ¬ OwnFills s (.isAuthorized k token sub now)) :
    Crossed s.threads token sub now := by
  simp only [OwnFills, not_forall] at h
  obtain ⟨kind, info, hcached, hlive, hne⟩ := h
  obtain rfl : kind = !sub := Bool.eq_not.mpr hne
  have hcache : s.threads.auth.cache token = some info := by rw [hs.cached, hcached]; rfl
  refine ⟨{ valid := true, info := some info, expired := some false }, info, ?_, rfl, rfl,
    hs.answered token _ info hcached⟩
  simp [lookup, hcache, hlive]

/-- Every accepted call has its token validated at the endpoint for its kind, as long as no call
finds an entry in the cache that a call of the other kind has put there; and whichever call does
is accepted on the answer that the other one got. -/
theorem separate_of_ownFills (es : List TokenEvent) :
    (Steps kindStep OwnFills {} es → Steps tokenStep Separate {} es) ∧
    ∀ s k token sub now, run kindStep {} es = some s →
      ¬ OwnFills s (.isAuthorized k token sub now) → Crossed s.threads token sub now := by
  have hvouched := always_of_step vouched_start (fun s e u hs hu => vouched_step s e u hs hu) es
  have herase (s : Kinds) (e : TokenEvent) :
      (kindStep s e).map Kinds.threads = tokenStep s.threads e := by
    simp [kindStep, Function.comp_def]
  constructor
  · intro h
    have hseparate : Steps kindStep (fun s e => Separate s.threads e) {} es := by
      intro p e hp s u hs hu
      have hprefix : p <+: es := (List.prefix_append p [e]).trans hp
      exact (hvouched p hprefix s hs).separate (h p e hp s u hs hu)
    exact hseparate.erase herase
  · exact fun s k token sub now hs hnot => (hvouched.here hs).crossed hnot

/-- The call uses its token with the flag that goes with the token. -/
def UsedAs (kindOf : String → Bool) : TokenEvent → Prop
  | .isAuthorized _ token sub _ => sub = kindOf token
  | _ => True

/-- Nothing that a call holds, or has cached, is of another kind than its token. -/
structure OneKind (kindOf : String → Bool) (s : Kinds) : Prop where
  asking : ∀ k token sub, s.threads.calls k = .asking token sub → sub = kindOf token
  filling : ∀ k token sub info now, s.threads.calls k = .filling token sub info now →
    sub = kindOf token
  cached : ∀ token kind info, s.cachedBy token = some (kind, info) → kind = kindOf token

theorem oneKind_start (kindOf : String → Bool) : OneKind kindOf {} where
  asking k token sub h := by cases h
  filling k token sub info now h := by cases h
  cached token kind info h := by cases h

theorem OneKind.become {kindOf : String → Bool} {s : Kinds} (h : OneKind kindOf s) (t : Threads)
    (k : Nat) (c : Call) (ht : t.calls = Function.update s.threads.calls k c)
    (hasking : ∀ token sub, c = .asking token sub → sub = kindOf token)
    (hfilling : ∀ token sub info now, c = .filling token sub info now → sub = kindOf token) :
    OneKind kindOf { s with threads := t } where
  asking k' token sub hk' := by
    rw [ht] at hk'
    by_cases hkk : k' = k
    · exact hasking token sub (by simpa [hkk] using hk')
    · exact h.asking k' token sub (by simpa [hkk] using hk')
  filling k' token sub info now hk' := by
    rw [ht] at hk'
    by_cases hkk : k' = k
    · exact hfilling token sub info now (by simpa [hkk] using hk')
    · exact h.filling k' token sub info now (by simpa [hkk] using hk')
  cached := h.cached

theorem OneKind.update {kindOf : String → Bool} {s : Kinds} (h : OneKind kindOf s) (token : String)
    (entry : Option (Bool × UserInfoAndPolicy))
    (hentry : ∀ kind info, entry = some (kind, info) → kind = kindOf token) :
    OneKind kindOf { s with cachedBy := Function.update s.cachedBy token entry } where
  asking := h.asking
  filling := h.filling
  cached t kind info hc := by
    by_cases heq : t = token
    · subst heq
      exact hentry kind info (by simpa using hc)
    · exact h.cached t kind info (by simpa [heq] using hc)

theorem oneKind_step {kindOf : String → Bool} {s u : Kinds} {e : TokenEvent}
    (h : OneKind kindOf s) (he : UsedAs kindOf e) (hu : kindStep s e = some u) :
    OneKind kindOf u := by
  obtain ⟨t, ht, rfl⟩ := Option.map_eq_some_iff.mp hu
  have hnone (token : String) :
      OneKind kindOf { s with cachedBy := Function.update s.cachedBy token none } :=
    h.update token none fun _ _ heq => by cases heq
  cases stepped_of_tokenStep ht with
  | found => exact h
  | asking =>
    refine h.become _ _ _ rfl (fun token sub heq => ?_) fun _ _ _ _ heq => by cases heq
    cases heq
    exact he
  | evicting =>
    exact h.become _ _ _ rfl (fun _ _ heq => by cases heq) fun _ _ _ _ heq => by cases heq
  | accepted hk =>
    refine h.become _ _ _ rfl (fun _ _ heq => by cases heq) fun _ _ _ _ heq => ?_
    cases heq
    exact h.asking _ _ _ hk
  | refused =>
    exact h.become _ _ _ rfl (fun _ _ heq => by cases heq) fun _ _ _ _ heq => by cases heq
  | @filled k token sub info now hk =>
    simp only [cachedAfter, hk]
    refine (h.update token (some (sub, info)) fun kind other heq => ?_).become _ _ _ rfl
      (fun _ _ heq => by cases heq) fun _ _ _ _ heq => by cases heq
    cases heq
    exact h.filling k token sub info now hk
  | @evicted k token hk =>
    simp only [cachedAfter, hk]
    exact (hnone token).become _ _ _ rfl (fun _ _ heq => by cases heq)
      fun _ _ _ _ heq => by cases heq
  | removed token | dropped token =>
    exact ⟨(hnone token).asking, (hnone token).filling, (hnone token).cached⟩

theorem ownFills_of_usedAs (kindOf : String → Bool) {es : List TokenEvent}
    (h : ∀ e ∈ es, UsedAs kindOf e) : Steps kindStep OwnFills {} es := by
  have hused : Steps kindStep (fun _ => UsedAs kindOf) {} es :=
    fun p e hp _ _ _ _ => h e (hp.subset (by simp))
  have hkinds := always_of_guard (J := fun _ => True) trivial (oneKind_start kindOf)
    (fun _ _ _ _ _ => trivial) (fun s e u _ hs he hu => oneKind_step hs he hu) hused
  intro p e hp s u hs hu
  have hprefix : p <+: es := (List.prefix_append p [e]).trans hp
  cases e with
  | isAuthorized k token sub now =>
    intro kind info hcached _
    have hkind := (hkinds p hprefix s hs).cached token kind info hcached
    exact hkind.trans (h (.isAuthorized k token sub now) (hp.subset (by simp))).symm
  | answer | fill | evict | removedCachedToken | dropped => trivial

theorem ownTokens_separate : Steps tokenStep Separate {}
    [.isAuthorized 0 "user" false 50, .answer 0 50 goodToken, .fill 0,
     .isAuthorized 1 "subscriber" true 50, .answer 1 50 goodToken, .fill 1,
     .isAuthorized 0 "user" false 60, .isAuthorized 1 "subscriber" true 60] :=
  (separate_of_ownFills _).1 (ownFills_of_usedAs (· == "subscriber") (by simp [UsedAs]))

/-- A subscriber's token is accepted for a user's call. -/
theorem subscriber_token_accepted : ¬ ∀ es, Steps tokenStep Separate {} es := by
  intro h
  have hlast := (h ([.isAuthorized 0 "token" true 50, .answer 0 50 goodToken, .fill 0] ++
    [.isAuthorized 0 "token" false 60])).last rfl rfl
  obtain ⟨b, info, hmem⟩ := hlast ⟨rfl, _, rfl, rfl⟩
  exact absurd hmem (by simp [endpoint, goodToken, TokenAnswer.info?])

end Owls.AuthClient
