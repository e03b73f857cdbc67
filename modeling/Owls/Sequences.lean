import Owls.Security

/-!
# Sequences in JSON

The overloads of `field_from_json` that fill a vector from an array: which of them replace what
the vector held before, and what that makes of a record that is decoded a second time.
-/

open Fields

namespace Owls.RESTAPIUtils

open SecurityObjects JsonValue JsonField JsonDocument

/-- The conversions to `int64_t` and to `double`. -/
class JsonNumbers (V : Type) (D : outParam Type) extends JsonDocument V where
  toInt64 : V → Option Int64
  toDouble : V → Option D

variable {V D T α : Type}

/-! ## The overloads -/

/-- `isArray` and `getArray`. -/
def getArray [JsonDocument V] (o : Document V) (field : String) : Option (List V) :=
  match o field with
  | some (some v) => toArray v
  | _ => none

/-- The loop over an array. What was pushed before a conversion throws stays. -/
def pushAll (convert : V → Option α) : List V → List α → List α × Bool
  | [], value => (value, true)
  | v :: vs, value =>
    match convert v with
    | some a => pushAll convert vs (value ++ [a])
    | none => (value, false)

def fill [JsonDocument V] (clears : Bool) (convert : V → Option α) (o : Document V)
    (field : String) (value : List α) : List α × Bool :=
  match getArray o field with
  | some vs => pushAll convert vs (if clears then [] else value)
  | none => (value, true)

section

variable [JsonDocument V]

/-- A member that is absent leaves the string empty, and one that is `null` throws. -/
def stringPair (v : V) : Option (String × String) := do
  let inner ← extractPtr v
  let s1 ← assignIfPresent toText inner "tag" ""
  let s2 ← assignIfPresent toText inner "value" ""
  return (s1, s2)

/-- A new item, whose own `from_json` may throw. What it returns is not looked at. -/
def newItem (fresh : T) (fromJson : Document V → T → Option T) (v : V) : Option T := do
  let innerObj ← extractPtr v
  fromJson innerObj fresh

def StringPairVec.fieldFromJson (o : Document V) (field : String) (vec : List (String × String)) :
    List (String × String) × Bool :=
  fill false stringPair o field vec

def StringVec.fieldFromJson (o : Document V) (field : String) (value : List String) :
    List String × Bool :=
  fill true toText o field value

def TagList.fieldFromJson (o : Document V) (field : String) (value : List UInt64) :
    List UInt64 × Bool :=
  fill true toUInt64 o field value

/-- `std::vector<T>`. -/
def ObjectVec.fieldFromJson (fresh : T) (fromJson : Document V → T → Option T) (o : Document V)
    (field : String) (value : List T) : List T × Bool :=
  fill false (newItem fresh fromJson) o field value

end

section

variable [JsonNumbers V D]

def DoubleList.fieldFromJson (o : Document V) (field : String) (value : List D) : List D × Bool :=
  fill true JsonNumbers.toDouble o field value

def IntList.fieldFromJson (o : Document V) (field : String) (value : List Int64) :
    List Int64 × Bool :=
  fill true JsonNumbers.toInt64 o field value

end

/-- The overloads for a vector, by the type of its elements. -/
inductive Overload (V D : Type) : Type → Type 1
  | stringPairVec : Overload V D (String × String)
  | stringVec : Overload V D String
  | tagList : Overload V D UInt64
  | doubleList : Overload V D D
  | intList : Overload V D Int64
  | vector {T : Type} (fresh : T) (fromJson : Document V → T → Option T) : Overload V D T

namespace Overload

variable [JsonNumbers V D]

def fieldFromJson : Overload V D α → Document V → String → List α → List α × Bool
  | stringPairVec => StringPairVec.fieldFromJson
  | stringVec => StringVec.fieldFromJson
  | tagList => TagList.fieldFromJson
  | doubleList => DoubleList.fieldFromJson
  | intList => IntList.fieldFromJson
  | vector fresh fromJson => ObjectVec.fieldFromJson fresh fromJson

/-- What the overload makes of one element. -/
def element : Overload V D α → V → Option α
  | stringPairVec => stringPair
  | stringVec => toText
  | tagList => toUInt64
  | doubleList => JsonNumbers.toDouble
  | intList => JsonNumbers.toInt64
  | vector fresh fromJson => newItem fresh fromJson

def Clears : Overload V D α → Prop
  | stringPairVec | vector _ _ => False
  | stringVec | tagList | doubleList | intList => True

end Overload

/-! ## One decoding -/

variable {convert : V → Option α} {vs : List V} {field : String} {value : List α}

theorem pushAll_eq (convert : V → Option α) (vs : List V) (value : List α) :
    pushAll convert vs value = (value ++ (readList convert vs).1, (readList convert vs).2) := by
  induction vs generalizing value with
  | nil => simp only [pushAll, readList, List.append_nil]
  | cons v vs ih =>
    unfold pushAll readList
    cases convert v with
    | none => simp only [List.append_nil]
    | some a => simp only [ih, List.append_assoc, List.singleton_append]

theorem readList_fst_eq_nil :
    (readList convert vs).1 = [] ↔ ∀ v, vs.head? = some v → convert v = none := by
  cases vs with
  | nil => simp [readList]
  | cons v vs => cases h : convert v <;> simp [readList, h]

theorem fill_of_array [JsonDocument V] {o : Document V} (clears : Bool)
    (h : getArray o field = some vs) :
    fill clears convert o field value =
      ((if clears then [] else value) ++ (readList convert vs).1, (readList convert vs).2) := by
  rw [fill, h]
  exact pushAll_eq _ _ _

theorem array_of_getArray [JsonDocument V] {o : Document V} (h : getArray o field = some vs) :
    ∃ v, o field = some (some v) ∧ toArray v = some vs := by
  unfold getArray at h
  split at h
  · rename_i v hv
    exact ⟨v, hv, h⟩
  · cases h

namespace Overload

variable [JsonNumbers V D] {f : Overload V D α} {o : Document V}

theorem fieldFromJson_of_clears (hf : f.Clears) (h : getArray o field = some vs) :
    f.fieldFromJson o field value = ((readList f.element vs).1, (readList f.element vs).2) := by
  cases f with
  | stringPairVec | vector fresh fromJson => exact hf.elim
  | stringVec | tagList | doubleList | intList => exact fill_of_array true h

theorem fieldFromJson_of_not_clears (hf : ¬ f.Clears) (h : getArray o field = some vs) :
    f.fieldFromJson o field value =
      (value ++ (readList f.element vs).1, (readList f.element vs).2) := by
  cases f with
  | stringPairVec | vector fresh fromJson => exact fill_of_array false h
  | stringVec | tagList | doubleList | intList => exact absurd trivial hf

/-- The vector is replaced in exactly the cases in which it is cleared or was empty, and a second
decoding changes nothing in exactly those in which it is cleared or nothing is pushed. -/
theorem replaces_iff (f : Overload V D α) (o : Document V) (field : String) (vs : List V)
    (value : List α) (h : getArray o field = some vs) :
    (f.fieldFromJson o field value = f.fieldFromJson o field [] ↔ f.Clears ∨ value = []) ∧
      (f.fieldFromJson o field (f.fieldFromJson o field value).1 =
          f.fieldFromJson o field value ↔
        f.Clears ∨ ∀ v, vs.head? = some v → f.element v = none) := by
  by_cases hf : f.Clears
  · have hclears (value : List α) : f.fieldFromJson o field value =
        ((readList f.element vs).1, (readList f.element vs).2) := fieldFromJson_of_clears hf h
    exact ⟨iff_of_true (by rw [hclears, hclears]) (.inl hf),
      iff_of_true (by rw [hclears, hclears]) (.inl hf)⟩
  · have happends (value : List α) : f.fieldFromJson o field value =
        (value ++ (readList f.element vs).1, (readList f.element vs).2) :=
      fieldFromJson_of_not_clears hf h
    rw [← readList_fst_eq_nil]
    constructor
    · rw [happends, happends, Prod.mk.injEq, List.append_left_inj]
      simp [hf]
    · rw [happends value, happends, Prod.mk.injEq]
      simp [hf]

end Overload

/-- Values without fractions, which stand for their own numbers. -/
instance : JsonNumbers Node Nat where
  toInt64
    | .number n => if n < 0x8000000000000000 then some n.toInt64 else none
    | _ => none
  toDouble
    | .number n => some n.toNat
    | _ => none

def oneVariable : Node := .object true [("tag", .text "a"), ("value", .text "b")]

def actionLink : Document Node := .of [("variables", .array [oneVariable])]

def pairs : Overload Node Nat (String × String) := .stringPairVec

theorem Overload.replaces_iff_variables :
    (pairs.fieldFromJson actionLink "variables" [("x", "y")] =
        pairs.fieldFromJson actionLink "variables" [] ↔
      pairs.Clears ∨ [("x", "y")] = []) ∧
    (pairs.fieldFromJson actionLink "variables"
          (pairs.fieldFromJson actionLink "variables" [("x", "y")]).1 =
        pairs.fieldFromJson actionLink "variables" [("x", "y")] ↔
      pairs.Clears ∨ ∀ v, [oneVariable].head? = some v → pairs.element v = none) :=
  Overload.replaces_iff pairs actionLink "variables" [oneVariable] [("x", "y")] rfl

/-- The pair that was there before stays in front. -/
theorem Overload.pairs_appended :
    ¬ ∀ (α : Type) (f : Overload Node Nat α) (o : Document Node) (field : String) (vs : List Node)
      (value : List α), getArray o field = some vs →
        f.fieldFromJson o field value = f.fieldFromJson o field [] := by
  intro h
  have hsame := h _ pairs actionLink "variables" [oneVariable] [("x", "y")] rfl
  have hlength := congrArg (·.1.length) hsame
  exact absurd hlength (by decide)

/-! ## Records -/

section

variable [JsonDocument V] {R : Type} {get : R → T} {set : T → R → R} {name : String}
  {o : Document V}

theorem steady_of_toText {e : Entry Bool V R} {φ : String → T} (hc : Component get set)
    (hread : ∀ v s, e.read v s = match toText v with
      | some t => (set (φ t) s, true)
      | none => (s, false)) : e.Steady o get set := by
  apply Entry.steady_of_read hc
  intro v
  cases hv : toText v with
  | none => exact .inr ⟨false, fun s => by rw [hread, hv]⟩
  | some t => exact .inl ⟨φ t, true, fun s => by rw [hread, hv]⟩

theorem text_steady {get : R → String} {set : String → R → R} (hc : Component get set) :
    (text (V := V) name get set).Steady o get set :=
  steady_of_toText (φ := id) hc fun _ _ => rfl

theorem flag_steady {get : R → Bool} {set : Bool → R → R} (hc : Component get set) :
    (flag (V := V) name get set).Steady o get set :=
  steady_of_toText (φ := (· == "true")) hc fun _ _ => rfl

theorem object_steady {toJson : Bool → T → List (String × V)}
    {fromJson : Document V → T → T × Bool} (hc : Component get set)
    (htwice : ∀ o x, fromJson o (fromJson o x).1 = fromJson o x) :
    (object name get set toJson fromJson).Steady o get set := by
  rcases hv : (o name).join.bind toObject with _ | inner
  · refine ⟨id, true, fun s => ?_, fun x => rfl⟩
    rw [id, hc.set_get]
    rcases ho : o name with _ | _ | v
    · simp [Entry.readFrom, object, ho]
    · simp [Entry.readFrom, object, ho]
    · have hnone : toObject v = none := by simpa [ho] using hv
      simp [Entry.readFrom, object, ho, hnone]
  · refine ⟨fun x => (fromJson inner x).1, true, fun s => ?_,
      fun x => congrArg (·.1) (htwice inner x)⟩
    rcases ho : o name with _ | _ | v
    · simp [ho] at hv
    · simp [ho] at hv
    · have hsome : toObject v = some inner := by simpa [ho] using hv
      simp [Entry.readFrom, object, ho, hsome]

theorem texts_readFrom {get : R → List String} {set : List String → R → R} {vs : List V} {s : R}
    (h : getArray o name = some vs) :
    (texts name get set).readFrom o s = (set (StringVec.fieldFromJson o name (get s)).1 s,
      (StringVec.fieldFromJson o name (get s)).2) := by
  rw [StringVec.fieldFromJson, fill_of_array true h]
  obtain ⟨v, ho, hv⟩ := array_of_getArray h
  simp [Entry.readFrom, texts, ho, hv]

theorem objects_readFrom {get : R → List T} {set : List T → R → R}
    {toJson : Bool → T → List (String × V)} {fromJson : Document V → T → T × Bool} {fresh : T}
    {vs : List V} {s : R} (h : getArray o name = some vs) :
    let field := ObjectVec.fieldFromJson fresh (fun o t => some (fromJson o t).1) o name (get s)
    (objects name get set toJson (fromJson · fresh)).readFrom o s = (set field.1 s, field.2) := by
  have hitem : newItem fresh (fun o t => some (fromJson o t).1) =
      extractItem (V := V) (fromJson · fresh) := by
    funext v
    rw [newItem, extractItem]
    cases extractPtr v <;> rfl
  obtain ⟨v, ho, hv⟩ := array_of_getArray h
  dsimp only
  rw [ObjectVec.fieldFromJson, fill_of_array false h, hitem]
  simp [Entry.readFrom, objects, ho, hv]

/-- What reading the field pushes. -/
def pushed (convert : V → Option α) (o : Document V) (field : String) : List α :=
  (fill false convert o field []).1

theorem objects_changes {get : R → List T} {set : List T → R → R}
    {toJson : Bool → T → List (String × V)} {fromJson : Document V → T × Bool}
    (hc : Component get set) : ∃ b, ∀ s, (objects name get set toJson fromJson).readFrom o s =
      (set (get s ++ pushed (extractItem fromJson) o name) s, b) := by
  cases h : getArray o name with
  | none =>
    have hnothing : pushed (extractItem fromJson) o name = [] := by rw [pushed, fill, h]
    refine ⟨true, fun s => ?_⟩
    rw [hnothing, List.append_nil, hc.set_get]
    unfold getArray at h
    split at h
    · rename_i v ho
      simp [Entry.readFrom, objects, ho, h]
    · rename_i hnone
      rw [Entry.readFrom]
      split
      · rename_i v ho
        exact absurd ho (hnone v)
      · rfl
  | some vs =>
    obtain ⟨v, ho, hv⟩ := array_of_getArray h
    refine ⟨(readList (extractItem fromJson) vs).2, fun s => ?_⟩
    rw [pushed, fill_of_array false h]
    simp [Entry.readFrom, objects, ho, hv]

end

end Owls.RESTAPIUtils

namespace Owls.SecurityObjects

open RESTAPIUtils

variable {V : Type} [JsonDocument V]

theorem MfaAuthInfo.fromJson_twice (o : Document V) (m : MfaAuthInfo) :
    MfaAuthInfo.fromJson o (MfaAuthInfo.fromJson o m).1 = MfaAuthInfo.fromJson o m := by
  have henabled : Component MfaAuthInfo.enabled fun v m => { m with enabled := v } :=
    ⟨fun _ _ => rfl, fun _ _ _ => rfl, fun _ => rfl⟩
  have hmethod : Component MfaAuthInfo.method fun v m => { m with method := v } :=
    ⟨fun _ _ => rfl, fun _ _ _ => rfl, fun _ => rfl⟩
  apply readAll_twice
  · simp only [MfaAuthInfo.entries, List.forall_mem_cons]
    exact ⟨(flag_steady henabled).settles henabled, (text_steady hmethod).settles hmethod,
      List.forall_mem_nil _⟩
  · refine List.pairwise_pair.mpr ((flag_steady henabled).apart (text_steady hmethod) ?_)
    exact ⟨fun _ _ => rfl, fun _ _ => rfl, fun _ _ _ => rfl⟩

namespace UserLoginLoginExtensions

theorem mobiles_component :
    Component mobiles fun v u => { u with mobiles := v } :=
  ⟨fun _ _ => rfl, fun _ _ _ => rfl, fun _ => rfl⟩

theorem mfa_component : Component mfa fun v u => { u with mfa := v } :=
  ⟨fun _ _ => rfl, fun _ _ _ => rfl, fun _ => rfl⟩

theorem authenticatorSecret_component :
    Component authenticatorSecret fun v u => { u with authenticatorSecret := v } :=
  ⟨fun _ _ => rfl, fun _ _ _ => rfl, fun _ => rfl⟩

variable {o : Document V}

theorem mfa_steady : (object (V := V) "mfa" mfa (fun v u => { u with mfa := v })
    (fun _ => MfaAuthInfo.toJson) MfaAuthInfo.fromJson).Steady o mfa
      (fun v u => { u with mfa := v }) :=
  object_steady mfa_component MfaAuthInfo.fromJson_twice

theorem authenticatorSecret_steady : (text (V := V) "authenticatorSecret" authenticatorSecret
    fun v u => { u with authenticatorSecret := v }).Steady o authenticatorSecret
      (fun v u => { u with authenticatorSecret := v }) :=
  text_steady authenticatorSecret_component

/-- The phone numbers that reading the document pushes. -/
def readMobiles (o : Document V) : List MobilePhoneNumber :=
  pushed (extractItem (MobilePhoneNumber.fromJson · {})) o "mobiles"

theorem mobilesEntry_changes (o : Document V) : ∃ b, ∀ s, mobilesEntry.readFrom o s =
    ({ s with mobiles := s.mobiles ++ readMobiles o }, b) :=
  objects_changes mobiles_component

theorem mobiles_fromJson (o : Document V) (u : UserLoginLoginExtensions) :
    (fromJson o u).1.mobiles = u.mobiles ++ readMobiles o := by
  obtain ⟨b, hmobiles⟩ := mobilesEntry_changes o
  have hkeeps : ∀ e ∈ otherEntries (V := V), ∀ s : UserLoginLoginExtensions,
      (e.readFrom o s).1.mobiles = s.mobiles := by
    simp only [otherEntries, List.forall_mem_cons]
    exact ⟨fun s => mfa_steady.keeps fun _ _ => rfl,
      fun s => authenticatorSecret_steady.keeps fun _ _ => rfl, List.forall_mem_nil _⟩
  rw [fromJson, readAll, hmobiles u]
  cases b with
  | true => exact readAll_keeps hkeeps
  | false => rfl

theorem fromJson_twice_iff (o : Document V) (u : UserLoginLoginExtensions) :
    fromJson o (fromJson o u).1 = fromJson o u ↔ readMobiles o = [] := by
  constructor
  · intro h
    have hmobiles : u.mobiles ++ readMobiles o ++ readMobiles o = u.mobiles ++ readMobiles o := by
      rw [← mobiles_fromJson, ← mobiles_fromJson, h]
    simpa using hmobiles
  · intro hnil
    obtain ⟨b, hchanges⟩ := mobilesEntry_changes o
    have hsteady : mobilesEntry.Steady o mobiles fun v u => { u with mobiles := v } :=
      ⟨(· ++ readMobiles o), b, hchanges, fun l => by simp [hnil]⟩
    apply readAll_twice
    · simp only [otherEntries, List.forall_mem_cons]
      exact ⟨hsteady.settles mobiles_component, mfa_steady.settles mfa_component,
        authenticatorSecret_steady.settles authenticatorSecret_component, List.forall_mem_nil _⟩
    · simp only [otherEntries, List.pairwise_cons, List.forall_mem_cons]
      refine ⟨⟨hsteady.apart mfa_steady ?_, hsteady.apart authenticatorSecret_steady ?_,
        List.forall_mem_nil _⟩, ⟨mfa_steady.apart authenticatorSecret_steady ?_,
        List.forall_mem_nil _⟩, List.forall_mem_nil _, List.Pairwise.nil⟩ <;>
      exact ⟨fun _ _ => rfl, fun _ _ => rfl, fun _ _ _ => rfl⟩

end UserLoginLoginExtensions

end Owls.SecurityObjects
