import Owls.Base.Machine
import Owls.Base.Word
import Owls.Json

/-!
# The registry file

`AppServiceRegistry`: what a service keeps in `registry.json`, read once when the process starts
and written again after every use. Its accessor returns a copy, which shares the registry and saves
it when it goes.
-/

namespace Owls.AppServiceRegistry

/-- `Poco::JSON::Object`, in the order of the keys: a key may hold `null`. -/
abbrev Object (V : Type) := Std.ExtTreeMap String (Option V)

inductive Parsed (V : Type)
  | object (o : Object V)
  | other

class Poco (V : Type) where
  stringify : Object V → String
  /-- `none`: the parser throws. -/
  parse : String → Option (Parsed V)
  ofTexts : List String → V
  isArray : V → Bool
  /-- The strings that a range-for over the `Var` visits, `none` where it throws. -/
  each : V → Option (List String)
  isArray_ofTexts : ∀ l, isArray (ofTexts l) = true

/-- A type with a `Var`, which converts back to the value it was made of. -/
class Scalar (V T : Type) where
  toVar : T → V
  /-- `none` where the conversion throws. -/
  convert : V → Option T
  convert_toVar : ∀ x, convert (toVar x) = some x

/-- The file, and the `Registry_` of the instance: `none` is the null pointer. -/
structure Registry (V : Type) where
  file : Option String
  registry : Option (Object V)

inductive Fault
  | nullPointer
  | badCast
deriving DecidableEq

abbrev Call (V α : Type) := Registry V → Except Fault α × Registry V

variable {V T α : Type} [Poco V]

open Poco Scalar

/-! ## The code -/

/-- The constructor. What the parser throws is caught, and what is not an object too. -/
def construct (file : Option String) : Registry V :=
  match file with
  | none => ⟨none, none⟩
  | some text =>
    match parse text with
    | some (.object o) => ⟨some text, some o⟩
    | _ => ⟨some text, some ∅⟩

/-- The file is open and empty before the registry is looked at. -/
def save : Call V Unit := fun s =>
  match s.registry with
  | none => (.error .nullPointer, { s with file := some "" })
  | some o => (.ok (), { s with file := some (stringify o) })

def setVar (key : String) (v : V) : Call V Unit := fun s =>
  match s.registry with
  | none => (.error .nullPointer, s)
  | some o => save { s with registry := some (o.insert key (some v)) }

def set [Scalar V T] (key : String) (value : T) : Call V Unit := setVar key (toVar value)

def setTexts (key : String) (value : List String) : Call V Unit := setVar key (ofTexts value)

/-- What both forms of `Get` do with a value that is not `null`. -/
def getVar (accepts : V → Bool) (take : V → Option T) (key : String) (value : T) :
    Call V (Bool × T) := fun s =>
  match s.registry with
  | none => (.error .nullPointer, s)
  | some o =>
    match o[key]? with
    | some (some v) =>
      if accepts v then
        match take v with
        | some x => (.ok (true, x), s)
        | none => (.error .badCast, s)
      else (.ok (false, value), s)
    | _ => (.ok (false, value), s)

def get [Scalar V T] (key : String) (value : T) : Call V (Bool × T) :=
  getVar (fun _ => true) convert key value

/-- The strings come after those that the vector has. -/
def getTexts (key : String) (value : List String) : Call V (Bool × List String) :=
  getVar isArray (fun v => (each v).map (value ++ ·)) key value

/-- A call on `AppServiceRegistry()`. The destructor of the copy saves, also after a throw. -/
def onCopy (call : Call V α) : Call V α := fun s =>
  let (answer, s) := call s
  match save s with
  | (.ok (), s) => (answer, s)
  | (.error fault, s) => (.error fault, s)

/-- `s` is what the address, the clock and the random numbers come to. -/
def initializeSystemId [Scalar V UInt64] (s : UInt64) : Call V UInt64 := fun r =>
  match onCopy (set "systemid" s) r with
  | (.ok (), r) => (.ok s, r)
  | (.error fault, r) => (.error fault, r)

def getSystemId [Scalar V UInt64] (s : UInt64) : Call V UInt64 := fun r =>
  match onCopy (get "systemid" (0 : UInt64)) r with
  | (.ok (true, id), r) => (.ok id, r)
  | (.ok (false, _), r) => initializeSystemId s r
  | (.error fault, r) => (.error fault, r)

/-! ## Runs -/

/-- The uses of the registry, and the end of the process with a new one after it. -/
inductive Event (V : Type) : Type 1
  | set {T : Type} [Scalar V T] (key : String) (value : T)
  | setTexts (key : String) (value : List String)
  | get {T : Type} [Scalar V T] (key : String) (value : T)
  | getTexts (key : String) (value : List String)
  | restart

def Event.stored : Event V → Option (String × V)
  | @set _ _ _ key value => some (key, toVar value)
  | .setTexts key value => some (key, ofTexts value)
  | _ => none

/-- The process is no more after a null pointer. -/
def survive : Except Fault α × Registry V → Option (Registry V)
  | (.error .nullPointer, _) => none
  | (_, s) => some s

def step (s : Registry V) : Event V → Option (Registry V)
  | @Event.set _ _ _ key value => survive (onCopy (set key value) s)
  | .setTexts key value => survive (onCopy (setTexts key value) s)
  | @Event.get _ _ _ key value => survive (onCopy (get key value) s)
  | .getTexts key value => survive (onCopy (getTexts key value) s)
  | .restart => some (construct s.file)

def saved (o : Object V) : Registry V := ⟨some (stringify o), some o⟩

/-- The text of the registry is one that the parser reads back. -/
def Reads (s : Registry V) : Prop :=
  ∀ o, s.registry = some o → parse (stringify o) = some (.object o)

/-- The file has a value under the key, and the registry too. -/
def Holds (key : String) (v : V) (s : Registry V) : Prop :=
  ∃ o, s = saved o ∧ o[key]? = some (some v)

/-! ## One use -/

variable {s t : Registry V} {o : Object V} {key : String} {v : V} {e : Event V} {es : List (Event V)}
  {accepts : V → Bool} {take : V → Option T} {value x : T} {file : Option String}

theorem onCopy_setVar (h : s.registry = some o) :
    onCopy (setVar key v) s = (.ok (), saved (o.insert key (some v))) := by
  simp only [onCopy, setVar, save, h, saved]

omit [Poco V] in
theorem getVar_cases (h : s.registry = some o) :
    (∃ v x, o[key]? = some (some v) ∧ take v = some x ∧
        getVar accepts take key value s = (.ok (true, x), s)) ∨
      getVar accepts take key value s = (.error .badCast, s) ∨
      getVar accepts take key value s = (.ok (false, value), s) := by
  simp only [getVar, h]
  split
  · rename_i v hv
    split
    · split
      · rename_i x hx
        exact .inl ⟨v, x, hv, hx, rfl⟩
      · exact .inr (.inl rfl)
    · exact .inr (.inr rfl)
  · exact .inr (.inr rfl)

omit [Poco V] in
theorem getVar_snd : (getVar accepts take key value s).2 = s := by
  cases h : s.registry with
  | none => rw [getVar, h]
  | some o => obtain ⟨v, x, -, -, hget⟩ | hget | hget := getVar_cases h <;> rw [hget]

theorem onCopy_getVar (h : s.registry = some o) :
    onCopy (getVar accepts take key value) s = ((getVar accepts take key value s).1, saved o) := by
  simp only [onCopy, getVar_snd, save, h, saved]

omit [Poco V] in
theorem getVar_ne_nullPointer (h : s.registry = some o) :
    (getVar accepts take key value s).1 ≠ .error .nullPointer := by
  obtain ⟨v, x, -, -, hget⟩ | hget | hget := getVar_cases h <;> rw [hget] <;> exact nofun

theorem getVar_of_holds (accepts : V → Bool) (take : V → Option T) (value : T) (h : Holds key v s)
    (haccepts : accepts v = true) :
    (getVar accepts take key value s).1 =
      match take v with
      | some x => .ok (true, x)
      | none => .error .badCast := by
  obtain ⟨o, rfl, hv⟩ := h
  simp only [getVar, saved, hv, haccepts, if_true]
  cases take v <;> rfl

omit [Poco V] in
theorem getVar_true (h : s.registry = some o)
    (hget : (getVar accepts take key value s).1 = .ok (true, x)) :
    ∃ v, o[key]? = some (some v) ∧ take v = some x := by
  obtain ⟨v, y, hv, hy, hcase⟩ | hcase | hcase := getVar_cases h <;> rw [hcase] at hget <;>
    cases hget
  exact ⟨v, hv, hy⟩

theorem onCopy_null (call : Call V α) (h : s.registry = none) (hcall : (call s).2 = s) :
    onCopy call s = (.error .nullPointer, { s with file := some "" }) := by
  simp only [onCopy, hcall, save, h]

omit [Poco V] in
theorem survive_of_ne {r : Except Fault α × Registry V} (h : r.1 ≠ .error .nullPointer) :
    survive r = some r.2 := by
  obtain ⟨answer, s⟩ := r
  rcases answer with fault | a
  · cases fault
    · exact absurd rfl h
    · rfl
  · rfl

theorem step_open (h : s.registry = some o) :
    (∃ key v, e.stored = some (key, v) ∧ step s e = some (saved (o.insert key (some v)))) ∨
      (e.stored = none ∧ step s e = some (saved o)) ∨
      (e.stored = none ∧ step s e = some (construct s.file)) := by
  have hset (key : String) (v : V) :
      survive (onCopy (setVar key v) s) = some (saved (o.insert key (some v))) := by
    rw [onCopy_setVar h]
    rfl
  have hget {T : Type} (accepts : V → Bool) (take : V → Option T) (key : String) (value : T) :
      survive (onCopy (getVar accepts take key value) s) = some (saved o) := by
    rw [onCopy_getVar h]
    exact survive_of_ne (getVar_ne_nullPointer h)
  cases e with
  | set key value => exact .inl ⟨key, toVar value, rfl, hset _ _⟩
  | setTexts key value => exact .inl ⟨key, ofTexts value, rfl, hset _ _⟩
  | get key value => exact .inr (.inl ⟨rfl, hget _ _ key value⟩)
  | getTexts key value => exact .inr (.inl ⟨rfl, hget _ _ key value⟩)
  | restart => exact .inr (.inr ⟨rfl, rfl⟩)

theorem step_null (h : s.registry = none) :
    step s e = none ∨ (e.stored = none ∧ step s e = some (construct s.file)) := by
  have hnone {α : Type} (call : Call V α) (hcall : (call s).2 = s) :
      survive (onCopy call s) = none := by
    rw [onCopy_null call h hcall]
    rfl
  have hset (key : String) (v : V) : (setVar key v s).2 = s := by rw [setVar, h]
  cases e with
  | set key value => exact .inl (hnone _ (hset _ _))
  | setTexts key value => exact .inl (hnone _ (hset _ _))
  | get key value => exact .inl (hnone _ getVar_snd)
  | getTexts key value => exact .inl (hnone _ getVar_snd)
  | restart => exact .inr ⟨rfl, rfl⟩

/-! ## Every run -/

def Open (s : Registry V) : Prop := s.file.isSome ∧ s.registry.isSome

theorem open_construct (text : String) : Open (construct (V := V) (some text)) := by
  unfold construct
  dsimp only
  split <;> exact ⟨rfl, rfl⟩

theorem Open.step (h : Open s) : ∃ t, step s e = some t ∧ Open t := by
  obtain ⟨hfile, hregistry⟩ := h
  obtain ⟨o, ho⟩ := Option.isSome_iff_exists.mp hregistry
  obtain ⟨text, htext⟩ := Option.isSome_iff_exists.mp hfile
  obtain ⟨key, v, -, hstep⟩ | ⟨-, hstep⟩ | ⟨-, hstep⟩ := step_open (e := e) ho
  · exact ⟨_, hstep, rfl, rfl⟩
  · exact ⟨_, hstep, rfl, rfl⟩
  · exact ⟨_, hstep, htext ▸ open_construct text⟩

theorem Open.run (h : Open s) (es : List (Event V)) :
    ∃ t, Machine.run AppServiceRegistry.step s es = some t ∧ Open t := by
  induction es generalizing s with
  | nil => exact ⟨s, rfl, h⟩
  | cons e es ih =>
    obtain ⟨t, ht, hopen⟩ := h.step (e := e)
    obtain ⟨u, hu, hopen⟩ := ih hopen
    exact ⟨u, by rw [Machine.run_cons, ht]; exact hu, hopen⟩

theorem run_absent (hrun : Machine.run step (construct (V := V) none) es = some s) :
    s = construct none := by
  have halways : Machine.Always step (· = construct (V := V) none) (construct none) es := by
    refine Machine.always_of_step (I := (· = construct none)) rfl (fun t e u ht hu => ?_) es
    subst ht
    obtain hnone | ⟨-, hrestart⟩ := step_null (s := construct (V := V) none) (e := e) rfl
    · rw [hnone] at hu
      cases hu
    · exact (Option.some.inj (hrestart.symm.trans hu)).symm
  exact halways.here hrun

theorem construct_saved (h : Reads (saved o)) : construct (saved o).file = saved o := by
  simp only [construct, saved, h o rfl]

theorem Holds.step (h : Holds key v s) (hreads : Reads s) (hother : ∀ w, e.stored ≠ some (key, w))
    (ht : step s e = some t) : Holds key v t := by
  obtain ⟨o, rfl, hv⟩ := h
  obtain ⟨k, w, hstored, hstep⟩ | ⟨-, hstep⟩ | ⟨-, hstep⟩ := step_open (e := e) (s := saved o) rfl
  · obtain rfl := Option.some.inj (hstep.symm.trans ht)
    have hk : k ≠ key := by
      rintro rfl
      exact hother w hstored
    refine ⟨_, rfl, ?_⟩
    rw [Std.ExtTreeMap.getElem?_insert, if_neg (by simpa using hk)]
    exact hv
  · obtain rfl := Option.some.inj (hstep.symm.trans ht)
    exact ⟨o, rfl, hv⟩
  · rw [construct_saved hreads] at hstep
    obtain rfl := Option.some.inj (hstep.symm.trans ht)
    exact ⟨o, rfl, hv⟩

theorem Holds.run (h : Holds key v s) (hreads : Machine.Always AppServiceRegistry.step Reads s es)
    (hother : ∀ e ∈ es, ∀ w, e.stored ≠ some (key, w))
    (ht : Machine.run AppServiceRegistry.step s es = some t) : Holds key v t := by
  have halways : Machine.Always AppServiceRegistry.step (Holds key v) s es := by
    refine Machine.always_of_prefix h fun p e hp t u htp hu ht => ?_
    have hprefix : p <+: es := (List.prefix_append p [e]).trans hp
    exact ht.step (hreads p hprefix t htp) (hother e (hp.subset (by simp))) hu
  exact halways.here ht

theorem onCopy_getVar_of_holds (accepts : V → Bool) (take : V → Option T) (value : T)
    (h : Holds key v s) (haccepts : accepts v = true) :
    (onCopy (getVar accepts take key value) s).1 =
      match take v with
      | some x => .ok (true, x)
      | none => .error .badCast := by
  have hget := getVar_of_holds accepts take value h haccepts
  obtain ⟨o, rfl, -⟩ := h
  rw [onCopy_getVar rfl]
  exact hget

/-! ## A service without the file -/

theorem open_after_failure (call : Call V α) (h : (call (construct none)).2 = construct none) :
    Open (construct (V := V) (onCopy call (construct none)).2.file) := by
  rw [onCopy_null call rfl h]
  exact open_construct ""

/-! ## The identity of the system -/

section SystemId

variable [Scalar V UInt64] {id : UInt64} (candidate : UInt64)

theorem initializeSystemId_eq (h : s.registry = some o) :
    initializeSystemId candidate s =
      (.ok candidate, saved (o.insert "systemid" (some (toVar candidate)))) := by
  rw [initializeSystemId, set, onCopy_setVar h]

theorem getSystemId_of_holds (h : Holds "systemid" v s) (hv : convert v = some id) :
    (getSystemId candidate s).1 = .ok id := by
  have hget := getVar_of_holds (fun _ => true) convert (0 : UInt64) h rfl
  obtain ⟨o, rfl, -⟩ := h
  rw [getSystemId, get, onCopy_getVar rfl, hget, hv]

theorem holds_getSystemId (h : s.registry = some o) (hid : (getSystemId candidate s).1 = .ok id) :
    ∃ v, Holds "systemid" v (getSystemId candidate s).2 ∧ convert v = some id := by
  have hget : onCopy (get "systemid" (0 : UInt64)) s =
      ((get "systemid" (0 : UInt64) s).1, saved o) := onCopy_getVar h
  rw [getSystemId, hget] at hid ⊢
  rcases hanswer : (get "systemid" (0 : UInt64) s).1 with fault | ⟨found, y⟩
  · rw [hanswer] at hid
    cases hid
  · rw [hanswer] at hid
    cases found with
    | true =>
      obtain ⟨v, hv, hconvert⟩ := getVar_true h hanswer
      cases hid
      exact ⟨v, ⟨o, rfl, hv⟩, hconvert⟩
    | false =>
      have hinit := initializeSystemId_eq (s := saved o) candidate rfl
      dsimp only at hid ⊢
      rw [hinit] at hid ⊢
      cases hid
      exact ⟨_, ⟨_, rfl, Std.ExtTreeMap.getElem?_insert_self⟩, convert_toVar _⟩

theorem getSystemId_again (later : UInt64) (h : s.registry = some o)
    (hid : (getSystemId candidate s).1 = .ok id)
    (hreads : Machine.Always step Reads (getSystemId candidate s).2 es)
    (hother : ∀ e ∈ es, ∀ w, e.stored ≠ some ("systemid", w))
    (hrun : Machine.run step (getSystemId candidate s).2 es = some t) :
    (getSystemId later t).1 = .ok id := by
  obtain ⟨v, hholds, hv⟩ := holds_getSystemId candidate h hid
  exact getSystemId_of_holds later (hholds.run hreads hother hrun) hv

end SystemId

/-! ## What is set is what is got -/

/-- Every use in the run goes through, and the call after it answers `true` with the value. -/
def Answers (file : Option String) (es : List (Event V)) (call : Call V (Bool × T)) (x : T) :
    Prop :=
  ∃ s, Machine.run step (construct file) es = some s ∧ (onCopy call s).1 = .ok (true, x)

def ReadsAfter (file : Option String) (es es' : List (Event V)) : Prop :=
  ∀ s, Machine.run step (construct file) es = some s → Machine.Always step Reads s es'

theorem run_absent_stored (es es' : List (Event V)) (hstored : e.stored = some (key, v)) :
    Machine.run step (construct none) (es ++ e :: es') = none := by
  rw [Machine.run_append, Option.bind_eq_none_iff]
  intro t ht
  obtain rfl := run_absent ht
  obtain hnone | ⟨hnone, -⟩ := step_null (s := construct (V := V) none) (e := e) rfl
  · rw [Machine.run_cons, hnone, Option.bind_none]
  · cases hnone.symm.trans hstored

theorem run_stored (text : String) (es : List (Event V)) (hstored : e.stored = some (key, v)) :
    ∃ o : Object V, Machine.run step (construct (some text)) (es ++ [e]) =
      some (saved (o.insert key (some v))) := by
  obtain ⟨t, ht, -, hregistry⟩ := (open_construct text).run es
  obtain ⟨o, ho⟩ := Option.isSome_iff_exists.mp hregistry
  refine ⟨o, ?_⟩
  rw [Machine.run_snoc, ht, Option.bind_some]
  obtain ⟨k, w, hs, hstep⟩ | ⟨hs, -⟩ | ⟨hs, -⟩ := step_open (e := e) ho
  · cases hs.symm.trans hstored
    exact hstep
  · cases hs.symm.trans hstored
  · cases hs.symm.trans hstored

theorem answers_iff (accepts : V → Bool) (take : V → Option T) (value x : T) {es' : List (Event V)}
    (hstored : e.stored = some (key, v))
    (hother : ∀ e ∈ es', ∀ w, e.stored ≠ some (key, w)) (haccepts : accepts v = true)
    (hreads : ReadsAfter file (es ++ [e]) es') :
    Answers file (es ++ e :: es') (getVar accepts take key value) x ↔
      file ≠ none ∧ take v = some x := by
  cases file with
  | none =>
    -- No run from the null pointer has a use in it.
    refine iff_of_false ?_ fun h => h.1 rfl
    rintro ⟨s, hrun, -⟩
    rw [run_absent_stored es es' hstored] at hrun
    cases hrun
  | some text =>
    obtain ⟨o, hset⟩ := run_stored text es hstored
    obtain ⟨u, hu, -⟩ := Open.run (s := saved (o.insert key (some v))) ⟨rfl, rfl⟩ es'
    have hholds : Holds key v u :=
      Holds.run ⟨_, rfl, Std.ExtTreeMap.getElem?_insert_self⟩ (hreads _ hset) hother hu
    have hrun : Machine.run step (construct (some text)) (es ++ e :: es') = some u := by
      rw [List.append_cons, Machine.run_append, hset]
      exact hu
    have hanswer := onCopy_getVar_of_holds accepts take value hholds haccepts
    rw [Answers, and_iff_right (Option.some_ne_none text), hrun]
    simp only [Option.some.injEq, exists_eq_left', hanswer]
    cases take v with
    | none => simp
    | some y => simp

/-- A value that was set is got, with restarts in between, if and only if the first process found
the file. A vector of strings also needs a range-for over its array to visit them. -/
theorem set_get_iff [Scalar V T] (file : Option String) (key : String) (es es' : List (Event V))
    (hother : ∀ e ∈ es', ∀ w, e.stored ≠ some (key, w)) :
    (∀ x value : T, ReadsAfter file (es ++ [.set key x]) es' →
      (Answers file (es ++ .set key x :: es') (get key value) x ↔ file ≠ none)) ∧
    (∀ l : List String, ReadsAfter file (es ++ [.setTexts key l]) es' →
      (Answers file (es ++ .setTexts key l :: es') (getTexts key []) l ↔
        file ≠ none ∧ each (ofTexts (V := V) l) = some l)) := by
  constructor
  · intro x value hreads
    have hiff := answers_iff (fun _ => true) convert value x rfl hother rfl hreads
    rwa [and_iff_left (convert_toVar x)] at hiff
  · intro l hreads
    have hiff := answers_iff isArray (fun v => (each v).map ([] ++ ·)) [] l rfl hother
      (isArray_ofTexts l) hreads
    have hnil : (each (ofTexts (V := V) l)).map ([] ++ ·) = some l ↔
        each (ofTexts (V := V) l) = some l := by simp
    exact hiff.trans (and_congr_right fun _ => hnil)

/-! ## One value in the file -/

inductive Item
  | number (n : UInt64)
  | texts (l : List String)
deriving DecidableEq

def Item.render : Item → String
  | .number n => Word.toDecimal n
  | .texts l => "[" ++ ",".intercalate (l.map fun t => "\"" ++ t ++ "\"") ++ "]"

def oneId : Object Item := (∅ : Object Item).insert "systemid" (some (.number 7))

instance : Poco Item where
  stringify o := "\x7b" ++ ",".intercalate (o.toList.map fun f =>
    "\"" ++ f.1 ++ "\":" ++ match f.2 with
      | some v => v.render
      | none => "null") ++ "\x7d"
  parse t :=
    if t = "\x7b\x7d" then some (.object ∅)
    else if t = "\x7b\"systemid\":7\x7d" then some (.object oneId)
    else none
  ofTexts := .texts
  isArray
    | .texts _ => true
    | _ => false
  each
    | .texts l => some l
    | _ => none
  isArray_ofTexts _ := rfl

instance : Scalar Item UInt64 where
  toVar := .number
  convert
    | .number n => some n
    | _ => none
  convert_toVar _ := rfl

theorem reads_oneId : Reads (saved oneId) := by
  rintro o ho
  cases ho
  have htext : stringify oneId = "\x7b\"systemid\":7\x7d" := by decide +kernel
  rw [htext]
  rfl

theorem set_get_iff_restart :
    Answers (some "") ([.get "systemid" (0 : UInt64)] ++ .set "systemid" (7 : UInt64) :: [.restart])
      (get (V := Item) "systemid" (0 : UInt64)) 7 := by
  have hother : ∀ e ∈ [Event.restart], ∀ w : Item, e.stored ≠ some ("systemid", w) := by
    rintro e he w
    obtain rfl := List.mem_singleton.mp he
    exact fun h => nomatch h
  have hrun : Machine.run step (construct (V := Item) (some ""))
      ([.get "systemid" (0 : UInt64)] ++ [.set "systemid" (7 : UInt64)]) = some (saved oneId) := rfl
  have hreads : ReadsAfter (V := Item) (some "")
      ([.get "systemid" (0 : UInt64)] ++ [.set "systemid" (7 : UInt64)]) [.restart] := by
    intro s hs
    obtain rfl := Option.some.inj (hrun.symm.trans hs)
    have halways : Machine.Always step (· = saved oneId) (saved oneId) [.restart] := by
      refine Machine.always_of_prefix (I := (· = saved oneId)) rfl fun p e hp t u _ hu ht => ?_
      obtain rfl := List.mem_singleton.mp (hp.subset (by simp : e ∈ p ++ [e]))
      subst ht
      exact (Option.some.inj hu).symm.trans (construct_saved reads_oneId)
    exact halways.imp fun t ht => ht ▸ reads_oneId
  exact ((set_get_iff (some "") "systemid" _ _ hother).1 7 0 hreads).mpr (Option.some_ne_none "")

theorem absent_file_fails :
    ¬ ∀ (file : Option String) (key : String) (es es' : List (Event Item)) (x value : UInt64),
      (∀ e ∈ es', ∀ w, e.stored ≠ some (key, w)) → ReadsAfter file (es ++ [.set key x]) es' →
        Answers file (es ++ .set key x :: es') (get key value) x := by
  intro h
  have hreads : ReadsAfter (V := Item) none ([] ++ [.set "systemid" (7 : UInt64)]) [] := by
    intro s hs
    cases hs
  obtain ⟨s, hrun, -⟩ := h none "systemid" [] [] 7 0 (fun e he => by cases he) hreads
  cases hrun

end Owls.AppServiceRegistry
