import Owls.Base.Fields
import Owls.Json

/-!
# What the security service answers

The JSON of `SecurityObjects::UserInfoAndPolicy` and of the records inside it. A document is held
in one of two forms: built in memory by `to_json`, where a nested object is set by value, or made
by the parser of its text, which holds every object by pointer (the form `true`).
-/

open Fields

namespace Owls.SecurityObjects

variable {V : Type}

/-- Values that are also made of a `bool`, of an object and of an array. -/
class JsonDocument (V : Type) extends JsonField V where
  ofBool : Bool → V
  ofObject : (pointer : Bool) → List (String × V) → V
  ofArray : List V → V
  /-- `Object::isObject` and `Object::getObject`, which take both forms. -/
  toObject : V → Option (Document V)
  /-- `Var::extract<Object::Ptr>`, which throws on any other type. -/
  extractPtr : V → Option (Document V)
  toArray : V → Option (List V)
  toText_ofBool : ∀ b, toText (ofBool b) = some (if b then "true" else "false")
  toObject_ofObject : ∀ p fields, toObject (ofObject p fields) = some (.of fields)
  extractPtr_ofObject : ∀ p fields,
    extractPtr (ofObject p fields) = if p then some (.of fields) else none
  toArray_ofArray : ∀ l, toArray (ofArray l) = some l

open JsonValue JsonField JsonDocument

/-! ## Fields -/

section Entries

variable [JsonDocument V] {R T : Type}

def text (name : String) (get : R → String) (set : String → R → R) : Entry Bool V R where
  name
  read v s := match toText v with
    | some t => (set t s, true)
    | none => (s, false)
  value _ r := ofText (get r)
  copy _ r := set (get r)
  law _ r s _ := by simp only [toText_ofText]

def number (name : String) (get : R → UInt64) (set : UInt64 → R → R) : Entry Bool V R where
  name
  read v s := match toUInt64 v with
    | some n => (set n s, true)
    | none => (s, false)
  value _ r := ofUInt64 (get r)
  copy _ r := set (get r)
  law _ r s _ := by simp only [toUInt64_ofUInt64]

def flag (name : String) (get : R → Bool) (set : Bool → R → R) : Entry Bool V R where
  name
  read v s := match toText v with
    | some t => (set (t == "true") s, true)
    | none => (s, false)
  value _ r := ofBool (get r)
  copy _ r := set (get r)
  law _ r s _ := by
    simp only [toText_ofBool]
    cases get r <;> rfl

def coded (name : String) (get : R → T) (set : T → R → R) (toString : T → String)
    (ofString : String → T) (back : ∀ t, ofString (toString t) = t) : Entry Bool V R where
  name
  read v s := match toText v with
    | some t => (set (ofString t) s, true)
    | none => (s, false)
  value _ r := ofText (toString (get r))
  copy _ r := set (get r)
  law _ r s _ := by simp only [toText_ofText, back]

/-- A `StringVec`, which is cleared first. -/
def texts (name : String) (get : R → List String) (set : List String → R → R) :
    Entry Bool V R where
  name
  read v s := match toArray v with
    | some vs => (set (readList toText vs).1 s, (readList toText vs).2)
    | none => (s, true)
  value _ r := ofArray ((get r).map ofText)
  copy _ r := set (get r)
  law _ r s _ := by
    simp only [toArray_ofArray, readList_map toText_ofText, List.map_id']

/-- A record inside the record. What its own `from_json` returns is not looked at. -/
def object (name : String) (get : R → T) (set : T → R → R) (toJson : Bool → T → List (String × V))
    (fromJson : Document V → T → T × Bool) : Entry Bool V R where
  name
  read v s := match toObject v with
    | some o => (set (fromJson o (get s)).1 s, true)
    | none => (s, true)
  value f r := ofObject f (toJson f (get r))
  copy f r s := set (fromJson (.of (toJson f (get r))) (get s)).1 s
  law _ r s _ := by simp only [toObject_ofObject]

/-- One more element of a vector. The value has to be a pointer to an object. -/
def extractItem (fromJson : Document V → T × Bool) (v : V) : Option T :=
  (extractPtr v).map fun o => (fromJson o).1

theorem extractItem_ofObject (fromJson : Document V → T × Bool) (toJson : T → List (String × V))
    (t : T) : extractItem fromJson (ofObject true (toJson t)) =
      some (fromJson (.of (toJson t))).1 := by
  rw [extractItem, extractPtr_ofObject]
  rfl

/-- A vector of records, which is not cleared. -/
def objects (name : String) (get : R → List T) (set : List T → R → R)
    (toJson : Bool → T → List (String × V)) (fromJson : Document V → T × Bool) :
    Entry Bool V R where
  name
  read v s := match toArray v with
    | some vs =>
      (set (get s ++ (readList (extractItem fromJson) vs).1) s,
       (readList (extractItem fromJson) vs).2)
    | none => (s, true)
  value f r := ofArray ((get r).map fun t => ofObject f (toJson f t))
  copy f r s := set (get s ++ (get r).map fun t => (fromJson (.of (toJson f t))).1) s
  ok f r := f = true ∨ get r = []
  law f r s := by
    rintro (rfl | hnil)
    · simp only [toArray_ofArray, readList_map (extractItem_ofObject fromJson (toJson true))]
    · simp only [toArray_ofArray, hnil, List.map_nil, readList]

theorem objects_stops {name : String} {get : R → List T} {set : List T → R → R}
    {toJson : Bool → T → List (String × V)} {fromJson : Document V → T × Bool} {r : R} (s : R)
    (h : get r ≠ []) :
    (objects name get set toJson fromJson).read
      ((objects name get set toJson fromJson).value false r) s = (set (get s) s, false) := by
  obtain ⟨t, l, hl⟩ := List.exists_cons_of_ne_nil h
  simp [objects, toArray_ofArray, hl, readList, extractItem, extractPtr_ofObject]

end Entries

/-! ## Roles -/

def userTypeToString : UserRole → String
  | .root => "root"
  | .admin => "admin"
  | .subscriber => "subscriber"
  | .partner => "partner"
  | .csr => "csr"
  | .system => "system"
  | .installer => "installer"
  | .noc => "noc"
  | .accounting => "accounting"
  | .unknown => "unknown"

/-- `Poco::icompare`, of which only equality is used. -/
def icompare (s t : String) : Bool := s.toList.map Char.toLower == t.toList.map Char.toLower

def userTypeFromString (u : String) : UserRole :=
  if icompare u "root" then .root
  else if icompare u "admin" then .admin
  else if icompare u "subscriber" then .subscriber
  else if icompare u "partner" then .partner
  else if icompare u "csr" then .csr
  else if icompare u "system" then .system
  else if icompare u "installer" then .installer
  else if icompare u "noc" then .noc
  else if icompare u "accounting" then .accounting
  else .unknown

theorem userTypeFromString_toString (u : UserRole) :
    userTypeFromString (userTypeToString u) = u := by
  cases u <;> decide

/-! ## AclTemplate -/

structure AclTemplate where
  read : Bool := true
  readWrite : Bool := true
  readWriteCreate : Bool := true
  delete : Bool := true
  portalLogin : Bool := true

namespace AclTemplate

variable [JsonDocument V]

def toJson (a : AclTemplate) : List (String × V) :=
  [("Read", ofBool a.read), ("ReadWrite", ofBool a.readWrite),
   ("ReadWriteCreate", ofBool a.readWriteCreate), ("Delete", ofBool a.delete),
   ("PortalLogin", ofBool a.portalLogin)]

def entries : List (Entry Bool V AclTemplate) :=
  [flag "Read" (·.read) fun v a => { a with read := v },
   flag "ReadWrite" (·.readWrite) fun v a => { a with readWrite := v },
   flag "ReadWriteCreate" (·.readWriteCreate) fun v a => { a with readWriteCreate := v },
   flag "Delete" (·.delete) fun v a => { a with delete := v },
   flag "PortalLogin" (·.portalLogin) fun v a => { a with portalLogin := v }]

def fromJson : Document V → AclTemplate → AclTemplate × Bool := readAll entries

theorem fromJson_toJson (a s : AclTemplate) : fromJson (V := V) (.of a.toJson) s = (a, true) := by
  have hwrites : Writes (entries (V := V)) false a.toJson a := rfl
  exact readAll_copies hwrites (by simp [entries, flag])

end AclTemplate

/-! ## WebToken -/

structure WebToken where
  accessToken : String := ""
  refreshToken : String := ""
  idToken : String := ""
  tokenType : String := ""
  username : String := ""
  userMustChangePassword : Bool := false
  errorCode : UInt64 := 0
  expiresIn : UInt64 := 0
  idleTimeout : UInt64 := 0
  aclTemplate : AclTemplate := {}
  created : UInt64 := 0
  lastRefresh : UInt64 := 0

namespace WebToken

variable [JsonDocument V]

/-- `errorCode` is set twice. -/
def toJson (f : Bool) (t : WebToken) : List (String × V) :=
  [("access_token", ofText t.accessToken), ("refresh_token", ofText t.refreshToken),
   ("token_type", ofText t.tokenType), ("expires_in", ofUInt64 t.expiresIn),
   ("idle_timeout", ofUInt64 t.idleTimeout), ("created", ofUInt64 t.created),
   ("username", ofText t.username),
   ("userMustChangePassword", ofBool t.userMustChangePassword),
   ("errorCode", ofUInt64 t.errorCode), ("aclTemplate", ofObject f t.aclTemplate.toJson),
   ("errorCode", ofUInt64 t.errorCode), ("lastRefresh", ofUInt64 t.lastRefresh)]

def entries : List (Entry Bool V WebToken) :=
  [object "aclTemplate" (·.aclTemplate) (fun v t => { t with aclTemplate := v })
     (fun _ => AclTemplate.toJson) AclTemplate.fromJson,
   text "access_token" (·.accessToken) fun v t => { t with accessToken := v },
   text "refresh_token" (·.refreshToken) fun v t => { t with refreshToken := v },
   text "token_type" (·.tokenType) fun v t => { t with tokenType := v },
   number "expires_in" (·.expiresIn) fun v t => { t with expiresIn := v },
   number "idle_timeout" (·.idleTimeout) fun v t => { t with idleTimeout := v },
   number "created" (·.created) fun v t => { t with created := v },
   text "username" (·.username) fun v t => { t with username := v },
   flag "userMustChangePassword" (·.userMustChangePassword)
     fun v t => { t with userMustChangePassword := v },
   number "lastRefresh" (·.lastRefresh) fun v t => { t with lastRefresh := v }]

def fromJson : Document V → WebToken → WebToken × Bool := readAll entries

theorem fromJson_toJson (f : Bool) (t s : WebToken) : fromJson (V := V) (.of (t.toJson f)) s =
    ({ t with errorCode := s.errorCode, idToken := s.idToken }, true) := by
  have hwrites : Writes (entries (V := V)) f (t.toJson f) t := rfl
  have hcopies := readAll_copies (s := s) hwrites (by simp [entries, object, text, number, flag])
  rw [fromJson, hcopies]
  simp only [entries, copyAll, List.foldl, object, AclTemplate.fromJson_toJson]
  rfl

end WebToken

/-! ## Records inside the user -/

structure NoteInfo where
  created : UInt64 := 0
  createdBy : String := ""
  note : String := ""

structure MobilePhoneNumber where
  number : String := ""
  verified : Bool := false
  primary : Bool := false

structure MfaAuthInfo where
  enabled : Bool := false
  method : String := ""

structure UserLoginLoginExtensions where
  mobiles : List MobilePhoneNumber := []
  mfa : MfaAuthInfo := {}
  authenticatorSecret : String := ""

section Inner

variable [JsonDocument V]

def NoteInfo.toJson (n : NoteInfo) : List (String × V) :=
  [("created", ofUInt64 n.created), ("createdBy", ofText n.createdBy), ("note", ofText n.note)]

def NoteInfo.entries : List (Entry Bool V NoteInfo) :=
  [number "created" (·.created) fun v n => { n with created := v },
   text "createdBy" (·.createdBy) fun v n => { n with createdBy := v },
   text "note" (·.note) fun v n => { n with note := v }]

def NoteInfo.fromJson : Document V → NoteInfo → NoteInfo × Bool := readAll NoteInfo.entries

theorem NoteInfo.fromJson_toJson (n s : NoteInfo) :
    NoteInfo.fromJson (V := V) (.of n.toJson) s = (n, true) := by
  have hwrites : Writes (NoteInfo.entries (V := V)) false n.toJson n := rfl
  exact readAll_copies hwrites (by simp [NoteInfo.entries, text, number])

def MobilePhoneNumber.toJson (m : MobilePhoneNumber) : List (String × V) :=
  [("number", ofText m.number), ("verified", ofBool m.verified), ("primary", ofBool m.primary)]

def MobilePhoneNumber.entries : List (Entry Bool V MobilePhoneNumber) :=
  [text "number" (·.number) fun v m => { m with number := v },
   flag "verified" (·.verified) fun v m => { m with verified := v },
   flag "primary" (·.primary) fun v m => { m with primary := v }]

def MobilePhoneNumber.fromJson : Document V → MobilePhoneNumber → MobilePhoneNumber × Bool :=
  readAll MobilePhoneNumber.entries

theorem MobilePhoneNumber.fromJson_toJson (m s : MobilePhoneNumber) :
    MobilePhoneNumber.fromJson (V := V) (.of m.toJson) s = (m, true) := by
  have hwrites : Writes (MobilePhoneNumber.entries (V := V)) false m.toJson m := rfl
  exact readAll_copies hwrites (by simp [MobilePhoneNumber.entries, text, flag])

def MfaAuthInfo.toJson (m : MfaAuthInfo) : List (String × V) :=
  [("enabled", ofBool m.enabled), ("method", ofText m.method)]

def MfaAuthInfo.entries : List (Entry Bool V MfaAuthInfo) :=
  [flag "enabled" (·.enabled) fun v m => { m with enabled := v },
   text "method" (·.method) fun v m => { m with method := v }]

def MfaAuthInfo.fromJson : Document V → MfaAuthInfo → MfaAuthInfo × Bool :=
  readAll MfaAuthInfo.entries

theorem MfaAuthInfo.fromJson_toJson (m s : MfaAuthInfo) :
    MfaAuthInfo.fromJson (V := V) (.of m.toJson) s = (m, true) := by
  have hwrites : Writes (MfaAuthInfo.entries (V := V)) false m.toJson m := rfl
  exact readAll_copies hwrites (by simp [MfaAuthInfo.entries, text, flag])

end Inner

namespace UserLoginLoginExtensions

variable [JsonDocument V]

def toJson (f : Bool) (u : UserLoginLoginExtensions) : List (String × V) :=
  [("mobiles", ofArray (u.mobiles.map fun m => ofObject f m.toJson)),
   ("mfa", ofObject f u.mfa.toJson), ("authenticatorSecret", ofText u.authenticatorSecret)]

def mobilesEntry : Entry Bool V UserLoginLoginExtensions :=
  objects "mobiles" (·.mobiles) (fun v u => { u with mobiles := v })
    (fun _ => MobilePhoneNumber.toJson) (MobilePhoneNumber.fromJson · {})

def otherEntries : List (Entry Bool V UserLoginLoginExtensions) :=
  [object "mfa" (·.mfa) (fun v u => { u with mfa := v }) (fun _ => MfaAuthInfo.toJson)
     MfaAuthInfo.fromJson,
   text "authenticatorSecret" (·.authenticatorSecret) fun v u => { u with authenticatorSecret := v }]

def fromJson : Document V → UserLoginLoginExtensions → UserLoginLoginExtensions × Bool :=
  readAll (mobilesEntry :: otherEntries)

theorem fromJson_toJson {f : Bool} (u : UserLoginLoginExtensions) (hf : f = true ∨ u.mobiles = []) :
    fromJson (V := V) (.of (u.toJson f)) {} = (u, true) := by
  have hwrites : Writes (mobilesEntry :: otherEntries (V := V)) f (u.toJson f) u := rfl
  have hcopies := readAll_copies (s := {}) hwrites (by
    simpa [mobilesEntry, otherEntries, objects, object, text] using hf)
  rw [fromJson, hcopies]
  simp [mobilesEntry, otherEntries, copyAll, objects, object, text, MfaAuthInfo.fromJson_toJson,
    MobilePhoneNumber.fromJson_toJson]

theorem fromJson_stops (u : UserLoginLoginExtensions) (h : u.mobiles ≠ []) :
    fromJson (V := V) (.of (u.toJson false)) {} = ({}, false) := by
  have hlookup : (u.toJson (V := V) false).lookup "mobiles" =
    some (mobilesEntry.value false u) := rfl
  have hread : (mobilesEntry (V := V)).read (mobilesEntry.value false u) {} = ({}, false) := by
    rw [mobilesEntry]
    exact objects_stops _ h
  rw [fromJson, readAll, readFrom_of_lookup hlookup, hread]

end UserLoginLoginExtensions

/-! ## UserInfo -/

structure UserInfo where
  id : String := ""
  name : String := ""
  description : String := ""
  avatar : String := ""
  email : String := ""
  validated : Bool := false
  validationEmail : String := ""
  validationDate : UInt64 := 0
  creationDate : UInt64 := 0
  validationURI : String := ""
  changePassword : Bool := false
  lastLogin : UInt64 := 0
  currentLoginURI : String := ""
  lastPasswordChange : UInt64 := 0
  lastEmailCheck : UInt64 := 0
  waitingForEmailCheck : Bool := false
  locale : String := ""
  notes : List NoteInfo := []
  location : String := ""
  owner : String := ""
  suspended : Bool := false
  blackListed : Bool := false
  /-- Has no initial value. -/
  userRole : UserRole
  userTypeProprietaryInfo : UserLoginLoginExtensions := {}
  securityPolicy : String := ""
  securityPolicyChange : UInt64 := 0
  currentPassword : String := ""
  lastPasswords : List String := []
  oauthType : String := ""
  oauthUserInfo : String := ""
  /-- Has no initial value. -/
  modified : UInt64
  signingUp : String := ""

namespace UserInfo

variable [JsonDocument V]

def toJson (f : Bool) (u : UserInfo) : List (String × V) :=
  [("id", ofText u.id), ("name", ofText u.name), ("description", ofText u.description),
   ("avatar", ofText u.avatar), ("email", ofText u.email), ("validated", ofBool u.validated),
   ("validationEmail", ofText u.validationEmail), ("validationDate", ofUInt64 u.validationDate),
   ("creationDate", ofUInt64 u.creationDate), ("validationURI", ofText u.validationURI),
   ("changePassword", ofBool u.changePassword), ("lastLogin", ofUInt64 u.lastLogin),
   ("currentLoginURI", ofText u.currentLoginURI),
   ("lastPasswordChange", ofUInt64 u.lastPasswordChange),
   ("lastEmailCheck", ofUInt64 u.lastEmailCheck),
   ("waitingForEmailCheck", ofBool u.waitingForEmailCheck), ("locale", ofText u.locale),
   ("notes", ofArray (u.notes.map fun n => ofObject f n.toJson)),
   ("location", ofText u.location), ("owner", ofText u.owner), ("suspended", ofBool u.suspended),
   ("blackListed", ofBool u.blackListed), ("userRole", ofText (userTypeToString u.userRole)),
   ("userTypeProprietaryInfo", ofObject f (u.userTypeProprietaryInfo.toJson f)),
   ("securityPolicy", ofText u.securityPolicy),
   ("securityPolicyChange", ofUInt64 u.securityPolicyChange),
   ("currentPassword", ofText u.currentPassword),
   ("lastPasswords", ofArray (u.lastPasswords.map ofText)), ("oauthType", ofText u.oauthType),
   ("oauthUserInfo", ofText u.oauthUserInfo), ("modified", ofUInt64 u.modified),
   ("signingUp", ofText u.signingUp)]

def namesEntries : List (Entry Bool V UserInfo) :=
  [text "id" (·.id) fun v u => { u with id := v },
   text "name" (·.name) fun v u => { u with name := v },
   text "description" (·.description) fun v u => { u with description := v },
   text "avatar" (·.avatar) fun v u => { u with avatar := v },
   text "email" (·.email) fun v u => { u with email := v },
   text "validationEmail" (·.validationEmail) fun v u => { u with validationEmail := v },
   text "validationURI" (·.validationURI) fun v u => { u with validationURI := v },
   text "currentLoginURI" (·.currentLoginURI) fun v u => { u with currentLoginURI := v },
   text "locale" (·.locale) fun v u => { u with locale := v }]

def notesEntry : Entry Bool V UserInfo :=
  objects "notes" (·.notes) (fun v u => { u with notes := v }) (fun _ => NoteInfo.toJson)
    (NoteInfo.fromJson · {})

def statusEntries : List (Entry Bool V UserInfo) :=
  [text "location" (·.location) fun v u => { u with location := v },
   text "owner" (·.owner) fun v u => { u with owner := v },
   coded "userRole" (·.userRole) (fun v u => { u with userRole := v }) userTypeToString
     userTypeFromString userTypeFromString_toString,
   text "securityPolicy" (·.securityPolicy) fun v u => { u with securityPolicy := v },
   object "userTypeProprietaryInfo" (·.userTypeProprietaryInfo)
     (fun v u => { u with userTypeProprietaryInfo := v }) UserLoginLoginExtensions.toJson
     UserLoginLoginExtensions.fromJson,
   number "validationDate" (·.validationDate) fun v u => { u with validationDate := v },
   number "creationDate" (·.creationDate) fun v u => { u with creationDate := v },
   number "lastLogin" (·.lastLogin) fun v u => { u with lastLogin := v },
   number "lastPasswordChange" (·.lastPasswordChange) fun v u => { u with lastPasswordChange := v },
   number "lastEmailCheck" (·.lastEmailCheck) fun v u => { u with lastEmailCheck := v },
   number "securityPolicyChange" (·.securityPolicyChange)
     fun v u => { u with securityPolicyChange := v },
   flag "validated" (·.validated) fun v u => { u with validated := v },
   flag "changePassword" (·.changePassword) fun v u => { u with changePassword := v },
   flag "waitingForEmailCheck" (·.waitingForEmailCheck)
     fun v u => { u with waitingForEmailCheck := v },
   flag "suspended" (·.suspended) fun v u => { u with suspended := v },
   flag "blackListed" (·.blackListed) fun v u => { u with blackListed := v },
   text "currentPassword" (·.currentPassword) fun v u => { u with currentPassword := v },
   texts "lastPasswords" (·.lastPasswords) fun v u => { u with lastPasswords := v },
   text "oauthType" (·.oauthType) fun v u => { u with oauthType := v },
   text "oauthUserInfo" (·.oauthUserInfo) fun v u => { u with oauthUserInfo := v },
   number "modified" (·.modified) fun v u => { u with modified := v },
   text "signingUp" (·.signingUp) fun v u => { u with signingUp := v }]

def fromJson : Document V → UserInfo → UserInfo × Bool :=
  readAll (namesEntries ++ notesEntry :: statusEntries)

theorem fromJson_toJson {f : Bool} (u : UserInfo) (role : UserRole) (modified : UInt64)
    (hf : f = true ∨ u.notes = []) :
    fromJson (V := V) (.of (u.toJson f)) { userRole := role, modified } =
      ({ u with userTypeProprietaryInfo := (UserLoginLoginExtensions.fromJson (V := V)
          (.of (u.userTypeProprietaryInfo.toJson f)) {}).1 }, true) := by
  have hwrites : Writes (namesEntries ++ notesEntry :: statusEntries (V := V)) f (u.toJson f) u :=
    rfl
  have hcopies := readAll_copies (s := { userRole := role, modified }) hwrites (by
    simpa [namesEntries, notesEntry, statusEntries, text, number, flag, coded, texts, object,
      objects] using hf)
  rw [fromJson, hcopies]
  simp [namesEntries, notesEntry, statusEntries, copyAll, objects, object, text, number, flag,
    coded, texts, NoteInfo.fromJson_toJson]

theorem fromJson_stops (u : UserInfo) (role : UserRole) (modified : UInt64) (h : u.notes ≠ []) :
    (fromJson (V := V) (.of (u.toJson false)) { userRole := role, modified }).1.notes = [] := by
  have hwrites : Writes (namesEntries (V := V)) false (u.toJson false) u := rfl
  have hok : ∀ e ∈ namesEntries (V := V), e.ok false u := by simp [namesEntries, text]
  have hlookup : (u.toJson (V := V) false).lookup "notes" = some (notesEntry.value false u) := rfl
  have hread (s : UserInfo) : (notesEntry (V := V)).read (notesEntry.value false u) s =
      ({ s with notes := s.notes }, false) := by
    rw [notesEntry]
    exact objects_stops s h
  rw [fromJson, readAll_stops hwrites hok hlookup (hread _)]
  rfl

end UserInfo

/-! ## UserInfoAndPolicy -/

structure UserInfoAndPolicy where
  webtoken : WebToken := {}
  userinfo : UserInfo

namespace UserInfoAndPolicy

/-- A value that nothing was read into. What has no initial value is whatever was there. -/
def fresh (role : UserRole) (modified : UInt64) : UserInfoAndPolicy :=
  { userinfo := { userRole := role, modified } }

/-- What `AuthClient` looks at. -/
def view (d : UserInfoAndPolicy) : Owls.UserInfoAndPolicy where
  webtoken := { expiresIn := d.webtoken.expiresIn, created := d.webtoken.created }
  userinfo := { email := d.userinfo.email, userRole := d.userinfo.userRole }

/-- The value without the one field that `to_json` does not write. -/
def written (d : UserInfoAndPolicy) : UserInfoAndPolicy := { d with webtoken.idToken := "" }

variable [JsonDocument V]

def toJson (f : Bool) (d : UserInfoAndPolicy) : List (String × V) :=
  [("tokenInfo", ofObject f (d.webtoken.toJson f)), ("userInfo", ofObject f (d.userinfo.toJson f))]

def entries : List (Entry Bool V UserInfoAndPolicy) :=
  [object "tokenInfo" (·.webtoken) (fun v d => { d with webtoken := v }) WebToken.toJson
     WebToken.fromJson,
   object "userInfo" (·.userinfo) (fun v d => { d with userinfo := v }) UserInfo.toJson
     UserInfo.fromJson]

def fromJson : Document V → UserInfoAndPolicy → UserInfoAndPolicy × Bool := readAll entries

variable (V) in
/-- What `to_json` made is decoded into a fresh value, from its text where `f` holds. -/
def decoded (f : Bool) (d : UserInfoAndPolicy) (role : UserRole) (modified : UInt64) :
    UserInfoAndPolicy :=
  (fromJson (V := V) (.of (d.toJson f)) (fresh role modified)).1

variable (V) in
def Restored (f : Bool) (d : UserInfoAndPolicy) (role : UserRole) (modified : UInt64) : Prop :=
  (decoded V f d role modified).written = d.written

/-- No object of an array has to be extracted from a document that holds it by value. -/
def Extracts (f : Bool) (d : UserInfoAndPolicy) : Prop :=
  f = true ∨ d.userinfo.notes = [] ∧ d.userinfo.userTypeProprietaryInfo.mobiles = []

variable {f : Bool} {d : UserInfoAndPolicy} (role : UserRole) (modified : UInt64)

theorem decoded_eq : decoded V f d role modified =
    { webtoken := { d.webtoken with errorCode := 0, idToken := "" }
      userinfo := (UserInfo.fromJson (V := V) (.of (d.userinfo.toJson f))
        { userRole := role, modified }).1 } := by
  have hwrites : Writes (entries (V := V)) f (d.toJson f) d := rfl
  have hcopies := readAll_copies (s := fresh role modified) hwrites (by simp [entries, object])
  rw [decoded, fromJson, hcopies]
  simp only [entries, copyAll, List.foldl, object, WebToken.fromJson_toJson]
  rfl

theorem decoded_userinfo (h : Extracts f d) :
    (decoded V f d role modified).userinfo = d.userinfo := by
  have hnotes : f = true ∨ d.userinfo.notes = [] := h.imp_right (·.1)
  have hmobiles : f = true ∨ d.userinfo.userTypeProprietaryInfo.mobiles = [] :=
    h.imp_right (·.2)
  rw [decoded_eq, UserInfo.fromJson_toJson _ role modified hnotes,
    UserLoginLoginExtensions.fromJson_toJson _ hmobiles]

theorem extracts_of_restored (h : Restored V f d role modified) : Extracts f d := by
  cases f with
  | true => exact .inl rfl
  | false =>
    have huser : (decoded V false d role modified).userinfo = d.userinfo := congrArg (·.userinfo) h
    rw [decoded_eq] at huser
    have hnotes : d.userinfo.notes = [] := by
      by_contra hne
      have hstops := UserInfo.fromJson_stops (V := V) d.userinfo role modified hne
      exact hne ((congrArg (·.notes) huser).symm.trans hstops)
    have hmobiles : d.userinfo.userTypeProprietaryInfo.mobiles = [] := by
      by_contra hne
      rw [UserInfo.fromJson_toJson _ role modified (.inr hnotes),
        UserLoginLoginExtensions.fromJson_stops _ hne] at huser
      exact hne (congrArg (·.userTypeProprietaryInfo.mobiles) huser).symm
    exact .inr ⟨hnotes, hmobiles⟩

/-- Every field that is written comes back in exactly the cases in which there is no error code,
and no note or phone number has to be extracted by pointer from a document that was not parsed. -/
theorem decodes_iff (f : Bool) (d : UserInfoAndPolicy) (role : UserRole) (modified : UInt64) :
    Restored V f d role modified ↔ d.webtoken.errorCode = 0 ∧ Extracts f d := by
  constructor
  · intro h
    have hcode : (decoded V f d role modified).webtoken.errorCode = d.webtoken.errorCode :=
      congrArg (·.webtoken.errorCode) h
    rw [decoded_eq] at hcode
    exact ⟨hcode.symm, extracts_of_restored role modified h⟩
  · rintro ⟨hcode, hextracts⟩
    have huser := decoded_userinfo (V := V) role modified hextracts
    have htoken : (decoded V f d role modified).webtoken =
        { d.webtoken with errorCode := 0, idToken := "" } := by rw [decoded_eq]
    rw [Restored, written, written, huser, htoken, ← hcode]

theorem view_decoded : (decoded V true d role modified).view = d.view := by
  have huser := decoded_userinfo (V := V) (d := d) role modified (.inl rfl)
  have htoken : (decoded V true d role modified).webtoken =
      { d.webtoken with errorCode := 0, idToken := "" } := by rw [decoded_eq]
  rw [view, huser, htoken, view]

end UserInfoAndPolicy

/-! ## An answer with an error code -/

inductive Node where
  | text (s : String)
  | number (n : UInt64)
  | flag (b : Bool)
  | object (pointer : Bool) (fields : List (String × Node))
  | array (items : List Node)

instance : JsonDocument Node where
  toText
    | .text s => some s
    | .flag b => some (if b then "true" else "false")
    | .number n => some (toString n)
    | _ => none
  toUInt64
    | .number n => some n
    | _ => none
  ofText := .text
  ofUInt64 := .number
  ofBool := .flag
  ofObject := .object
  ofArray := .array
  toObject
    | .object _ fields => some (.of fields)
    | _ => none
  extractPtr
    | .object true fields => some (.of fields)
    | _ => none
  toArray
    | .array items => some items
    | _ => none
  toText_ofText _ := rfl
  toUInt64_ofUInt64 _ := rfl
  toText_ofBool _ := rfl
  toObject_ofObject _ _ := rfl
  extractPtr_ofObject p _ := by cases p <;> rfl
  toArray_ofArray _ := rfl

def refused : UserInfoAndPolicy :=
  { webtoken := { errorCode := 1 }, userinfo := { userRole := .root, modified := 0 } }

theorem errorCode_lost : ¬ ∀ (f : Bool) (d : UserInfoAndPolicy) (role : UserRole)
    (modified : UInt64), UserInfoAndPolicy.Restored Node f d role modified := by
  intro h
  have hcode := congrArg (·.webtoken.errorCode) (h true refused .unknown 0)
  rw [UserInfoAndPolicy.decoded_eq] at hcode
  exact absurd hcode (by decide)

end Owls.SecurityObjects
