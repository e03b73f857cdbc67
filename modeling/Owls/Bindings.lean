import Mathlib.Data.List.Infix
import Owls.Query

/-!
# `RESTAPI_Router`

Which handler a path selects, and what `ParseBindings` binds to the parameters of its
pattern.
-/

namespace Owls.Router

/-! ## Patterns -/

/-- `Poco::StringTokenizer` with one separator. It keeps empty tokens, and an empty string has
no token. -/
def stringTokenizer (s : String) (sep : Char) : List String :=
  if s = "" then [] else (s.toList.splitOn sep).map String.ofList

theorem stringTokenizer_intercalate (sep : Char) (items : List String)
    (h : ∀ i ∈ items, sep ∉ i.toList) (hne : items ≠ []) {s : String} (hs : s ≠ "")
    (htext : s.toList = [sep].intercalate (items.map String.toList)) :
    stringTokenizer s sep = items := by
  rw [stringTokenizer, if_neg hs, htext,
    List.splitOn_intercalate sep (List.forall_mem_map.mpr h) (by simpa using hne), List.map_map]
  simp [Function.comp_def]

def segments (path : String) : List String := stringTokenizer path '/'

def isParam (item : String) : Bool := item.toList.head? == some '{'

/-- `substr(1, size - 2)`, in lower case. -/
def paramName (item : String) : String :=
  String.ofList (((item.toList.drop 1).take (item.toList.length - 2)).map Char.toLower)

abbrev BindingMap := Std.ExtTreeMap String String

/-- One pattern of the path's length, segment by segment. The bindings stay when a later
segment does not match. -/
def tryItems (bindings : BindingMap) : List String → List String → Bool × BindingMap
  | item :: items, x :: xs =>
    if x = item then tryItems bindings items xs
    else if isParam item then tryItems (bindings.insert (paramName item) x) items xs
    else (false, bindings)
  | _, _ => (true, bindings)

def tryEndPoints (path : List String) : List String → BindingMap → Bool × BindingMap
  | [], bindings => (false, bindings)
  | e :: es, bindings =>
    if path.length ≠ (segments e).length then tryEndPoints path es bindings
    else
      match tryItems bindings (segments e) path with
      | (true, bindings) => (true, bindings)
      | (false, bindings) => tryEndPoints path es bindings

/-- The bindings are cleared once, before the first pattern. -/
def parseBindings (request : String) (endPoints : List String) : Bool × BindingMap :=
  tryEndPoints (segments request) endPoints ∅

variable {H : Type} (pathName : H → List String)

/-- `none` is `RESTAPI_UnknownRequestHandler`. -/
def router (request : String) : List H → BindingMap → Option H × BindingMap
  | [], bindings => (none, bindings)
  | h :: hs, _ =>
    match parseBindings request (pathName h) with
    | (true, bindings) => (some h, bindings)
    | (false, bindings) => router request hs bindings

/-! ## What a path matches -/

def itemsMatch (items xs : List String) : Bool :=
  items.length == xs.length && (items.zip xs).all fun p => isParam p.1 || p.1 == p.2

def matchesPath (request e : String) : Bool := itemsMatch (segments e) (segments request)

def accepts (request : String) (h : H) : Bool := (pathName h).any (matchesPath request)

/-- The parameters of a pattern, each with the segment of the path that it stands for. -/
def itemParameters (items xs : List String) : List (String × String) :=
  (items.zip xs).filterMap fun p => if isParam p.1 then some (paramName p.1, p.2) else none

def parameters (request e : String) : List (String × String) :=
  itemParameters (segments e) (segments request)

def Exact (bindings : BindingMap) (parameters : List (String × String)) : Prop :=
  ∀ name value : String, bindings[name]? = some value ↔ (name, value) ∈ parameters

/-- The first handler with a pattern that matches is selected, and the bindings are those of
its first such pattern. -/
def RoutesExactly (request : String) (handlers : List H) : Prop :=
  let (selected, bindings) := router pathName request handlers ∅
  selected = handlers.find? (accepts pathName request) ∧
    ∀ h e, handlers.find? (accepts pathName request) = some h →
      (pathName h).find? (matchesPath request) = some e →
      Exact bindings (parameters request e)

/-! ## What a pattern writes -/

/-- What trying the items writes: nothing where the segment is the item's own text, and nothing
after the first segment that does not match. -/
def writes : List String → List String → List (String × String)
  | item :: items, x :: xs =>
    if x = item then writes items xs
    else if isParam item then (paramName item, x) :: writes items xs
    else []
  | _, _ => []

def endPointWrites (request : String) (es : List String) : List (String × String) :=
  (es.filter fun e => (segments request).length == (segments e).length).flatMap fun e =>
    writes (segments e) (segments request)

def lastWrite (ws : List (String × String)) (name : String) : Option String :=
  ws.reverse.lookup name

/-- The patterns tried before the one that matches, and that one. -/
structure Unstained (request : String) (tried : List String) (e : String) : Prop where
  /-- Patterns that fail bind no name but those of the pattern that matches. -/
  left : ∀ w ∈ endPointWrites request tried, ∃ value, (w.1, value) ∈ parameters request e
  /-- A parameter that the matching pattern does not bind has its segment already. -/
  bound : ∀ p ∈ parameters request e,
    (∀ value, (p.1, value) ∉ writes (segments e) (segments request)) →
    lastWrite (endPointWrites request tried) p.1 = some p.2
  agree : ∀ p ∈ parameters request e, ∀ q ∈ parameters request e, p.1 = q.1 → p.2 = q.2

def Clean (request : String) (handlers : List H) : Prop :=
  ∀ h e, handlers.find? (accepts pathName request) = some h →
    (pathName h).find? (matchesPath request) = some e →
    Unstained request ((pathName h).takeWhile (!matchesPath request ·)) e

/-! ## The map that writes leave -/

def BindingMap.insertAll (bindings : BindingMap) (ws : List (String × String)) : BindingMap :=
  ws.foldl (fun m w => m.insert w.1 w.2) bindings

variable {request : String} {items xs : List String} {ws vs : List (String × String)}

theorem insertAll_append (bindings : BindingMap) :
    bindings.insertAll (ws ++ vs) = (bindings.insertAll ws).insertAll vs :=
  List.foldl_append ..

theorem lastWrite_append (name : String) :
    lastWrite (ws ++ vs) name = (lastWrite vs name).or (lastWrite ws name) := by
  simp [lastWrite, List.lookup_append]

theorem getElem?_insertAll (bindings : BindingMap) (name : String) :
    (bindings.insertAll ws)[name]? = (lastWrite ws name).or bindings[name]? := by
  induction ws generalizing bindings with
  | nil => simp [BindingMap.insertAll, lastWrite]
  | cons w ws ih =>
    obtain ⟨k, v⟩ := w
    have hsplit : (k, v) :: ws = [(k, v)] ++ ws := rfl
    rw [hsplit, insertAll_append, ih, lastWrite_append, Option.or_assoc]
    congr 1
    by_cases h : k = name
    · subst h
      simp [BindingMap.insertAll, lastWrite]
    · have hbeq : (name == k) = false := by simpa using Ne.symm h
      simp [BindingMap.insertAll, lastWrite, List.lookup_cons, hbeq, Std.ExtTreeMap.getElem?_insert,
        h]

theorem mem_of_lastWrite {name value : String} (h : lastWrite ws name = some value) :
    (name, value) ∈ ws := by
  obtain ⟨l₁, l₂, heq, -⟩ := List.lookup_eq_some_iff.mp h
  rw [← List.mem_reverse, heq]
  simp

theorem lastWrite_of_mem {name value : String} (h : (name, value) ∈ ws) :
    ∃ v, lastWrite ws name = some v := by
  rw [← Option.isSome_iff_exists, lastWrite, List.lookup_isSome_iff]
  exact ⟨(name, value), List.mem_reverse.mpr h, by simp⟩

/-! ## What the search leaves -/

theorem tryItems_eq (bindings : BindingMap) (hlen : items.length = xs.length) :
    tryItems bindings items xs = (itemsMatch items xs, bindings.insertAll (writes items xs)) := by
  fun_induction tryItems bindings items xs with
  | case1 bindings item items xs ih =>
    rw [ih (by simpa using hlen)]
    simp [itemsMatch, writes]
  | case2 bindings item items x xs hne hparam ih =>
    rw [ih (by simpa using hlen)]
    simp [itemsMatch, writes, hne, hparam, BindingMap.insertAll]
  | case3 bindings item items x xs hne hparam =>
    simp [itemsMatch, writes, hne, hparam, Ne.symm hne, BindingMap.insertAll]
  | case4 items bindings xs hnone =>
    cases items with
    | nil =>
      obtain rfl : xs = [] := List.length_eq_zero_iff.mp (by simpa using hlen.symm)
      rfl
    | cons item items =>
      cases xs with
      | nil => cases hlen
      | cons x xs => exact (hnone item items x xs rfl rfl).elim

theorem tryEndPoints_of_find {es : List String} {e : String} (bindings : BindingMap)
    (h : es.find? (matchesPath request) = some e) :
    tryEndPoints (segments request) es bindings =
      (true, bindings.insertAll
        (endPointWrites request (es.takeWhile (!matchesPath request ·)) ++
          writes (segments e) (segments request))) := by
  induction es generalizing bindings with
  | nil => cases h
  | cons e' es ih =>
    unfold tryEndPoints
    by_cases hlen : (segments request).length = (segments e').length
    · have htry : tryItems bindings (segments e') (segments request) = (matchesPath request e', _) :=
        tryItems_eq bindings hlen.symm
      rw [if_neg (by simpa using hlen), htry]
      cases hm : matchesPath request e' with
      | true =>
        rw [List.find?_cons_of_pos hm] at h
        cases h
        simp [hm, endPointWrites]
      | false =>
        rw [List.find?_cons_of_neg (by simp [hm])] at h
        simp only [ih _ h]
        simp [hm, endPointWrites, hlen, insertAll_append]
    · have hm : matchesPath request e' = false := by
        simp [matchesPath, itemsMatch, Ne.symm hlen]
      rw [List.find?_cons_of_neg (by simp [hm])] at h
      rw [if_pos hlen, ih _ h]
      simp [hm, endPointWrites, hlen]

theorem tryEndPoints_of_none {es : List String} (bindings : BindingMap)
    (h : es.find? (matchesPath request) = none) :
    (tryEndPoints (segments request) es bindings).1 = false := by
  induction es generalizing bindings with
  | nil => rfl
  | cons e es ih =>
    rw [List.find?_eq_none, List.forall_mem_cons] at h
    have hm : matchesPath request e = false := by simpa using h.1
    have hrest := List.find?_eq_none.mpr h.2
    unfold tryEndPoints
    split
    · exact ih _ hrest
    · rename_i hlen
      have htry : tryItems bindings (segments e) (segments request) = (matchesPath request e, _) :=
        tryItems_eq bindings (by omega)
      rw [htry, hm]
      exact ih _ hrest

theorem router_eq (request : String) (handlers : List H) (bindings : BindingMap) :
    (router pathName request handlers bindings).1 = handlers.find? (accepts pathName request) ∧
      ∀ h, handlers.find? (accepts pathName request) = some h →
        (router pathName request handlers bindings).2 =
          (parseBindings request (pathName h)).2 := by
  induction handlers generalizing bindings with
  | nil => exact ⟨rfl, fun _ h => nomatch h⟩
  | cons h hs ih =>
    unfold router parseBindings
    cases hfind : (pathName h).find? (matchesPath request) with
    | some e =>
      have hacc : accepts pathName request h = true :=
        List.any_eq_true.mpr ⟨e, List.mem_of_find?_eq_some hfind, List.find?_some hfind⟩
      rw [List.find?_cons_of_pos hacc, tryEndPoints_of_find ∅ hfind]
      refine ⟨rfl, fun h' hh' => ?_⟩
      obtain rfl := Option.some.inj hh'
      exact (congrArg Prod.snd (tryEndPoints_of_find ∅ hfind)).symm
    | none =>
      have hacc : ¬ accepts pathName request h = true := by
        rw [accepts, List.any_eq_true]
        rintro ⟨e, he, hm⟩
        exact List.find?_eq_none.mp hfind e he hm
      have hfail := tryEndPoints_of_none (∅ : BindingMap) hfind
      rw [List.find?_cons_of_neg hacc]
      split
      · rename_i heq
        rw [heq] at hfail
        cases hfail
      · exact ih _

/-! ## When the bindings are exact -/

theorem writes_subset : writes items xs ⊆ itemParameters items xs := by
  fun_induction writes items xs with
  | case1 items item xs ih =>
    exact fun w hw => List.mem_filterMap.mpr
      ((List.mem_filterMap.mp (ih hw)).imp fun _ h => ⟨List.mem_cons_of_mem _ h.1, h.2⟩)
  | case2 item items x xs hne hparam ih =>
    have hcons : itemParameters (item :: items) (x :: xs) =
        (paramName item, x) :: itemParameters items xs := by simp [itemParameters, hparam]
    rw [hcons]
    exact List.cons_subset_cons _ ih
  | case3 => exact List.nil_subset _
  | case4 => exact List.nil_subset _

theorem exact_insertAll_iff {ps : List (String × String)} (hsub : vs ⊆ ps) :
    Exact ((∅ : BindingMap).insertAll (ws ++ vs)) ps ↔
      (∀ w ∈ ws, ∃ value, (w.1, value) ∈ ps) ∧
      (∀ p ∈ ps, (∀ value, (p.1, value) ∉ vs) → lastWrite ws p.1 = some p.2) ∧
      ∀ p ∈ ps, ∀ q ∈ ps, p.1 = q.1 → p.2 = q.2 := by
  have hget (name : String) : ((∅ : BindingMap).insertAll (ws ++ vs))[name]? =
      (lastWrite vs name).or (lastWrite ws name) := by
    rw [getElem?_insertAll, lastWrite_append]
    simp
  have hunwritten {name : String} (h : ∀ value, (name, value) ∉ vs) : lastWrite vs name = none := by
    rw [Option.eq_none_iff_forall_ne_some]
    exact fun v hv => h v (mem_of_lastWrite hv)
  constructor
  · intro hexact
    refine ⟨fun w hw => ?_, fun p hp hnone => ?_, fun p hp q hq hname => ?_⟩
    · obtain ⟨v, hv⟩ := lastWrite_of_mem (List.mem_append_left vs hw)
      refine ⟨v, (hexact w.1 v).mp ?_⟩
      rw [hget, ← lastWrite_append]
      exact hv
    · have hv := (hexact p.1 p.2).mpr hp
      rwa [hget, hunwritten hnone, Option.none_or] at hv
    · have hp' := (hexact p.1 p.2).mpr hp
      have hq' := (hexact q.1 q.2).mpr hq
      rw [hname] at hp'
      exact Option.some.inj (hp'.symm.trans hq')
  · rintro ⟨hleft, hbound, hagree⟩ name value
    rw [hget]
    cases hlast : lastWrite vs name with
    | some v =>
      have hv := hsub (mem_of_lastWrite hlast)
      rw [Option.some_or]
      constructor
      · rintro ⟨⟩
        exact hv
      · exact fun hp => congrArg some (hagree _ hv _ hp rfl)
    | none =>
      have hnone (v : String) : (name, v) ∉ vs := fun hv => by
        obtain ⟨v', hv'⟩ := lastWrite_of_mem hv
        cases hlast.symm.trans hv'
      rw [Option.none_or]
      constructor
      · intro hv
        obtain ⟨v, hp⟩ := hleft _ (mem_of_lastWrite hv)
        have hvalue : v = value := Option.some.inj ((hbound _ hp hnone).symm.trans hv)
        rwa [hvalue] at hp
      · exact fun hp => hbound _ hp hnone

theorem unstained_iff {tried : List String} {e : String} :
    Exact ((∅ : BindingMap).insertAll
      (endPointWrites request tried ++ writes (segments e) (segments request)))
      (parameters request e) ↔ Unstained request tried e := by
  rw [parameters, exact_insertAll_iff writes_subset]
  exact ⟨fun h => ⟨h.1, h.2.1, h.2.2⟩, fun h => ⟨h.left, h.bound, h.agree⟩⟩

/-- The right handler is selected for every path. The bindings are exact in exactly the cases in
which the patterns tried before leave no name behind, and the path does not repeat the text of
a parameter. -/
theorem routes_exactly_iff (request : String) (handlers : List H) :
    RoutesExactly pathName request handlers ↔ Clean pathName request handlers := by
  obtain ⟨hselected, hbindings⟩ := router_eq pathName request handlers ∅
  have hexact (h : H) (e : String) (hh : handlers.find? (accepts pathName request) = some h)
      (he : (pathName h).find? (matchesPath request) = some e) :
      Exact (router pathName request handlers ∅).2 (parameters request e) ↔
        Unstained request ((pathName h).takeWhile (!matchesPath request ·)) e := by
    rw [hbindings h hh, parseBindings, tryEndPoints_of_find ∅ he]
    exact unstained_iff
  constructor
  · exact fun hroutes h e hh he => (hexact h e hh he).mp (hroutes.2 h e hh he)
  · exact fun hclean => ⟨hselected, fun h e hh he => (hexact h e hh he).mpr (hclean h e hh he)⟩

/-- The end point of `RESTAPI_simulation_handler`, asked for with its own text as the path. -/
theorem literal_segment_unbound :
    ¬ ∀ (request : String) (handlers : List (List String)),
      RoutesExactly (fun h => h) request handlers := by
  intro h
  have hexact := (h "/api/v1/simulation/{id}" [["/api/v1/simulation/{id}"]]).2
    ["/api/v1/simulation/{id}"] "/api/v1/simulation/{id}" (by decide) (by decide)
  exact absurd ((hexact "id" "{id}").mpr (by decide)) (by decide)

/-- A pattern that matched only in part leaves its parameter behind. -/
example : (parseBindings "/a/x/c" ["/a/{id}/b", "/a/{name}/c"]).2["id"]? = some "x" := by decide

end Owls.Router
