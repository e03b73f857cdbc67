import Mathlib.Data.List.Basic

/-!
# Documents of named fields

A record is read out of a document field by field, each field from the value under its name.
A reading that fails ends the whole, and leaves in the record what was read before it.
-/

namespace Fields

variable {F V R : Type}

/-- A name is absent, or stands for nothing, or for a value. -/
abbrev Document (V : Type) := String → Option (Option V)

def Document.of (fields : List (String × V)) : Document V := fun name =>
  (fields.lookup name).map some

/-- What reading one field does. A record may have been written in several forms. The value is
what the form makes of the field, and where the form is one that can be read back, reading it
copies the field of that record. -/
structure Entry (F V R : Type) where
  name : String
  read : V → R → R × Bool
  value : F → R → V
  copy : F → R → R → R
  ok : F → R → Prop := fun _ _ => True
  law : ∀ f r s, ok f r → read (value f r) s = (copy f r s, true)

def Entry.readFrom (e : Entry F V R) (o : Document V) (s : R) : R × Bool :=
  match o e.name with
  | some (some v) => e.read v s
  | _ => (s, true)

def readAll : List (Entry F V R) → Document V → R → R × Bool
  | [], _, s => (s, true)
  | e :: es, o, s =>
    match e.readFrom o s with
    | (s, true) => readAll es o s
    | (s, false) => (s, false)

def copyAll (es : List (Entry F V R)) (f : F) (r s : R) : R :=
  es.foldl (fun s e => e.copy f r s) s

/-- The document has the fields of the record, under the names of the entries. -/
def Writes (es : List (Entry F V R)) (f : F) (fields : List (String × V)) (r : R) : Prop :=
  es.map (fun e => fields.lookup e.name) = es.map fun e => some (e.value f r)

variable {f : F} {es fs : List (Entry F V R)} {e : Entry F V R} {fields : List (String × V)}
  {r s : R}

theorem readFrom_of_lookup (h : fields.lookup e.name = some (e.value f r)) :
    e.readFrom (.of fields) s = e.read (e.value f r) s := by
  rw [Entry.readFrom, Document.of, h, Option.map_some]

theorem Writes.lookup (h : Writes es f fields r) (he : e ∈ es) :
    fields.lookup e.name = some (e.value f r) := List.map_inj_left.mp h e he

theorem readAll_append (h : Writes es f fields r) (hok : ∀ e ∈ es, e.ok f r) :
    readAll (es ++ fs) (.of fields) s = readAll fs (.of fields) (copyAll es f r s) := by
  induction es generalizing s with
  | nil => rfl
  | cons e es ih =>
    obtain ⟨he, hes⟩ := List.forall_mem_cons.mp hok
    have hread : e.readFrom (.of fields) s = (e.copy f r s, true) := by
      rw [readFrom_of_lookup (h.lookup List.mem_cons_self), e.law f r s he]
    rw [List.cons_append, readAll, hread]
    exact ih (List.cons_eq_cons.mp h).2 hes

theorem readAll_copies (h : Writes es f fields r) (hok : ∀ e ∈ es, e.ok f r) :
    readAll es (.of fields) s = (copyAll es f r s, true) := by
  have happend : readAll (es ++ []) (.of fields) s = readAll [] (.of fields) (copyAll es f r s) :=
    readAll_append h hok
  rwa [List.append_nil] at happend

theorem readAll_stops {t : R} (h : Writes es f fields r) (hok : ∀ e ∈ es, e.ok f r)
    (he : fields.lookup e.name = some (e.value f r))
    (hread : e.read (e.value f r) (copyAll es f r s) = (t, false)) :
    readAll (es ++ e :: fs) (.of fields) s = (t, false) := by
  rw [readAll_append h hok, readAll, readFrom_of_lookup he, hread]

/-! ## Reading twice -/

variable {T U : Type} {o : Document V} {d : Entry F V R} {get : R → T} {set : T → R → R}
  {get' : R → U} {set' : U → R → R}

/-- `get` and `set` are of one component of the record. -/
structure Component (get : R → T) (set : T → R → R) : Prop where
  get_set : ∀ x r, get (set x r) = x
  set_set : ∀ x y r, set x (set y r) = set x r
  set_get : ∀ r, set (get r) r = r

/-- Two components, neither of which is a part of the other. -/
structure Separate (get : R → T) (set : T → R → R) (get' : R → U) (set' : U → R → R) : Prop where
  first : ∀ y r, get (set' y r) = get r
  second : ∀ x r, get' (set x r) = get' r
  comm : ∀ x y r, set x (set' y r) = set' y (set x r)

/-- Reading changes a component, how and whether it goes on being a matter of the document. -/
def Entry.Changes (e : Entry F V R) (o : Document V) (get : R → T) (set : T → R → R) (g : T → T)
    (b : Bool) : Prop := ∀ s, e.readFrom o s = (set (g (get s)) s, b)

/-- Reading once more changes nothing. -/
def Settles (o : Document V) (e : Entry F V R) : Prop :=
  ∀ s, e.readFrom o (e.readFrom o s).1 = e.readFrom o s

/-- It does not matter which of the two is read first. -/
structure Apart (o : Document V) (e d : Entry F V R) : Prop where
  states : ∀ s, (e.readFrom o (d.readFrom o s).1).1 = (d.readFrom o (e.readFrom o s).1).1
  first : ∀ s, (e.readFrom o (d.readFrom o s).1).2 = (e.readFrom o s).2
  second : ∀ s, (d.readFrom o (e.readFrom o s).1).2 = (d.readFrom o s).2

/-- A change that is the same the second time. -/
def Entry.Steady (e : Entry F V R) (o : Document V) (get : R → T) (set : T → R → R) : Prop :=
  ∃ g b, e.Changes o get set g b ∧ ∀ x, g (g x) = g x

theorem Entry.steady_of_read (hc : Component get set) (h : ∀ v, (∃ t, ∃ b, ∀ s,
    e.read v s = (set t s, b)) ∨ ∃ b, ∀ s, e.read v s = (s, b)) : e.Steady o get set := by
  have hkept {b : Bool} (hread : ∀ s, e.readFrom o s = (s, b)) : e.Steady o get set :=
    ⟨id, b, fun s => by rw [hread, id, hc.set_get], fun x => rfl⟩
  rcases ho : o e.name with _ | _ | v
  · exact hkept fun s => by rw [Entry.readFrom, ho]
  · exact hkept fun s => by rw [Entry.readFrom, ho]
  · have hread (s : R) : e.readFrom o s = e.read v s := by rw [Entry.readFrom, ho]
    rcases h v with ⟨t, b, ht⟩ | ⟨b, hb⟩
    · exact ⟨fun _ => t, b, fun s => (hread s).trans (ht s), fun x => rfl⟩
    · exact hkept fun s => (hread s).trans (hb s)

theorem Entry.Steady.settles (he : e.Steady o get set) (hc : Component get set) : Settles o e := by
  obtain ⟨g, b, hchanges, hg⟩ := he
  intro s
  rw [hchanges s, hchanges, hc.get_set, hc.set_set, hg]

theorem Entry.Steady.apart (he : e.Steady o get set) (hd : d.Steady o get' set')
    (h : Separate get set get' set') : Apart o e d := by
  obtain ⟨g, b, he, -⟩ := he
  obtain ⟨g', b', hd, -⟩ := hd
  constructor
  · intro s
    rw [hd s, he s, he, hd, h.first, h.second, h.comm]
  · intro s
    rw [hd s, he, he]
  · intro s
    rw [he s, hd, hd]

theorem Entry.Steady.keeps (he : e.Steady o get set) (h : ∀ x r, get' (set x r) = get' r) :
    get' (e.readFrom o s).1 = get' s := by
  obtain ⟨g, b, hchanges, -⟩ := he
  rw [hchanges, h]

theorem readFrom_readAll (h : ∀ d ∈ es, Apart o e d) :
    e.readFrom o (readAll es o s).1 =
      ((readAll es o (e.readFrom o s).1).1, (e.readFrom o s).2) := by
  induction es generalizing s with
  | nil => rfl
  | cons d ds ih =>
    obtain ⟨hd, hds⟩ := List.forall_mem_cons.mp h
    have hstates := hd.states s
    have hfirst := hd.first s
    have hsecond := hd.second s
    rw [readAll, readAll]
    rcases hread : d.readFrom o s with ⟨t, ok⟩
    rcases hlater : d.readFrom o (e.readFrom o s).1 with ⟨u, ok'⟩
    rw [hread, hlater] at hstates hsecond
    rw [hread] at hfirst
    dsimp only at hstates hfirst hsecond
    subst hsecond
    cases ok' with
    | true =>
      dsimp only
      rw [ih hds, hstates, hfirst]
    | false => exact Prod.ext hstates hfirst

/-- A record is the same after a second reading, where every field is and no two meet. -/
theorem readAll_twice (hsettles : ∀ e ∈ es, Settles o e) (hapart : es.Pairwise (Apart o)) :
    readAll es o (readAll es o s).1 = readAll es o s := by
  induction es generalizing s with
  | nil => rfl
  | cons e es ih =>
    obtain ⟨he, hes⟩ := List.forall_mem_cons.mp hsettles
    obtain ⟨hfirst, hrest⟩ := List.pairwise_cons.mp hapart
    have hagain := he s
    rcases hread : e.readFrom o s with ⟨t, ok⟩
    rw [hread] at hagain
    cases ok with
    | true =>
      have hmoved : e.readFrom o (readAll es o t).1 = ((readAll es o t).1, true) := by
        rw [readFrom_readAll hfirst, hagain]
      have hall : readAll (e :: es) o s = readAll es o t := by rw [readAll, hread]
      rw [hall, readAll, hmoved]
      exact ih hes hrest
    | false =>
      have hall : readAll (e :: es) o s = (t, false) := by rw [readAll, hread]
      rw [hall, readAll, hagain]

theorem readAll_keeps (h : ∀ e ∈ es, ∀ s, get (e.readFrom o s).1 = get s) :
    get (readAll es o s).1 = get s := by
  induction es generalizing s with
  | nil => rfl
  | cons e es ih =>
    obtain ⟨he, hes⟩ := List.forall_mem_cons.mp h
    have hstep := he s
    rw [readAll]
    rcases hread : e.readFrom o s with ⟨t, ok⟩
    rw [hread] at hstep
    cases ok with
    | true => exact (ih hes).trans hstep
    | false => exact hstep

/-! ## Arrays -/

variable {α β : Type} {convert : V → Option α}

/-- The values of an array, up to the first that does not convert. -/
def readList (convert : V → Option α) : List V → List α × Bool
  | [] => ([], true)
  | v :: vs =>
    match convert v with
    | some a => (a :: (readList convert vs).1, (readList convert vs).2)
    | none => ([], false)

theorem readList_map {write : β → V} {back : β → α} (h : ∀ b, convert (write b) = some (back b))
    (l : List β) : readList convert (l.map write) = (l.map back, true) := by
  induction l with
  | nil => rfl
  | cons b l ih => simp only [List.map_cons, readList, h, ih]

theorem mem_readList {vs : List V} {v : V} {a : α} (h : ∀ v ∈ vs, (convert v).isSome) (hv : v ∈ vs)
    (ha : convert v = some a) : a ∈ (readList convert vs).1 := by
  induction vs with
  | nil => cases hv
  | cons w vs ih =>
    obtain ⟨hw, hvs⟩ := List.forall_mem_cons.mp h
    obtain ⟨b, hb⟩ := Option.isSome_iff_exists.mp hw
    simp only [readList, hb]
    rcases List.mem_cons.mp hv with rfl | hv
    · exact List.mem_cons.mpr (.inl (Option.some.inj (ha.symm.trans hb)))
    · exact List.mem_cons_of_mem b (ih hvs hv)

end Fields
