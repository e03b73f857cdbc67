import Owls.Base.Machine
import Owls.Base.Records
import Owls.Statements
import Owls.Storage

/-!
# The records of a table

`ORM::DB`: what `CreateRecord`, `GetRecord`, `UpdateRecord`, `ReplaceRecord`, `DeleteRecord` and
`Exists` do to a table, by the statements that they send.
-/

open Machine Rows Sql

namespace Owls.ORM

/-! ## Statements -/

/-- What `GetRecord` makes of a field. -/
def DB.selectStatement (db : DB) (fieldName : Name) : String :=
  db.selectWhere (fieldName.text ++ "=?")

def DB.deleteStatement (db : DB) (fieldName : Name) : String :=
  "delete from " ++ db.tableName.text ++ " where " ++ fieldName.text ++ "=?"

section Reading

variable (type : DBType) (db : DB) (fieldName : Name)

theorem toList_select : (convertParams type (db.selectStatement fieldName)).toList =
    "select ".toList ++ (db.built.selectFields.toList ++ " from ".toList) ++
      (db.tableName.text.toList ++ " where ".toList) ++ (fieldName.text.toList ++ ['=']) ++
      (mark type 1 ++ " limit ".toList) ++ ['1'] := by
  have hplain : '?' ∉ "select ".toList ++ (db.built.selectFields.toList ++ " from ".toList) ++
      (db.tableName.text.toList ++ " where ".toList) ++ (fieldName.text.toList ++ ['=']) := by
    simp only [List.mem_append, not_or]
    exact ⟨⟨⟨by decide, no_mark_selectFields db, by decide⟩, no_mark_name db.tableName, by decide⟩,
      no_mark_name fieldName, by decide⟩
  have hmark : "=?".toList = ['='] ++ ['?'] := rfl
  have hlimit : " limit 1".toList = " limit ".toList ++ ['1'] := rfl
  have hdef : db.selectStatement fieldName = "select " ++ db.built.selectFields ++ " from " ++
      db.tableName.text ++ " where " ++ (fieldName.text ++ "=?") ++ " limit 1" := rfl
  have htext : (db.selectStatement fieldName).toList =
      ("select ".toList ++ (db.built.selectFields.toList ++ " from ".toList) ++
        (db.tableName.text.toList ++ " where ".toList) ++ (fieldName.text.toList ++ ['='])) ++
        '?' :: (" limit ".toList ++ ['1']) := by
    simp only [hdef, String.toList_append, hmark, hlimit, List.append_assoc, List.cons_append,
      List.nil_append]
  rw [toList_convertParams, htext, converted_plain hplain, converted_mark,
    converted_self type (by decide)]
  simp only [List.append_assoc]

theorem readSelect_select : readSelect (convertParams type (db.selectStatement fieldName)) =
    some ⟨db.columnNames, db.tableName.read, (fieldName.read, placeholder type 1)⟩ := by
  have hselect : Settled "select ".toList [.word "select"] := by decide
  have hfrom : Separates " from ".toList [.word "from"] := ⟨by decide, by decide⟩
  have hwhere : Separates " where ".toList [.word "where"] := ⟨by decide, by decide⟩
  have hlimit : Separates " limit ".toList [.word "limit"] := ⟨by decide, by decide⟩
  have hone : Lexes ['1'] [.number "1"] := lexes_repr 1
  have hlexes := ((((hselect.append ((lexes_selectFields db).separate hfrom)).append
    ((lexes_name db.tableName).separate hwhere)).append (settled_assignment fieldName)).append
      ((lexes_mark type 1).separate hlimit)).lexes_append hone
  have hlex := hlexes.lex (toList_select type db fieldName)
  have hcondition := parseAssignment_mark type fieldName 1 [.word "limit", .number "1"]
  rw [readSelect, hlex, Option.bind_some]
  simp only [List.append_assoc, List.cons_append, List.nil_append] at hcondition ⊢
  rw [parseSelect, parseMany_columns db _ (by simp)]
  simp only [Option.bind_eq_bind, Option.bind_some]
  rw [hcondition]
  rfl

theorem toList_delete : (convertParams type (db.deleteStatement fieldName)).toList =
    "delete from ".toList ++ (db.tableName.text.toList ++ " where ".toList) ++
      (fieldName.text.toList ++ ['=']) ++ mark type 1 := by
  have hplain : '?' ∉ "delete from ".toList ++ (db.tableName.text.toList ++ " where ".toList) ++
      (fieldName.text.toList ++ ['=']) := by
    simp only [List.mem_append, not_or]
    exact ⟨⟨by decide, no_mark_name db.tableName, by decide⟩, no_mark_name fieldName, by decide⟩
  have hmark : "=?".toList = ['='] ++ ['?'] := rfl
  have hnil : converted type 2 [] = [] := by cases type <;> rfl
  have hdef : db.deleteStatement fieldName =
      "delete from " ++ db.tableName.text ++ " where " ++ fieldName.text ++ "=?" := rfl
  have htext : (db.deleteStatement fieldName).toList =
      ("delete from ".toList ++ (db.tableName.text.toList ++ " where ".toList) ++
        (fieldName.text.toList ++ ['='])) ++ '?' :: [] := by
    simp only [hdef, String.toList_append, hmark, List.append_assoc]
  rw [toList_convertParams, htext, converted_plain hplain, converted_mark, hnil, List.append_nil]

theorem readDelete_delete : readDelete (convertParams type (db.deleteStatement fieldName)) =
    some ⟨db.tableName.read, (fieldName.read, placeholder type 1)⟩ := by
  have hdelete : Settled "delete from ".toList [.word "delete", .word "from"] := by decide
  have hwhere : Separates " where ".toList [.word "where"] := ⟨by decide, by decide⟩
  have hlexes := ((hdelete.append ((lexes_name db.tableName).separate hwhere)).append
    (settled_assignment fieldName)).lexes_append (lexes_mark type 1)
  have hlex := hlexes.lex (toList_delete type db fieldName)
  have hcondition := parseAssignment_mark type fieldName 1 []
  rw [readDelete, hlex, Option.bind_some]
  simp only [List.cons_append, List.nil_append, List.append_nil] at hcondition ⊢
  rw [parseDelete, hcondition]
  rfl

end Reading

/-! ## Records and rows -/

instance : (k : SlotType) → DecidableEq k.El
  | .text => inferInstanceAs (DecidableEq String)
  | .number => inferInstanceAs (DecidableEq UInt64)

/-- A `DB` with its record type. The asserted lengths, and what each member of the class brings. -/
structure Mapping (R : Type) where
  db : DB
  slots : List SlotType
  /-- `Convert` to a row, and from one. -/
  toRecord : R → Tuple SlotType.El slots
  ofRecord : Tuple SlotType.El slots → R
  keyName : Name
  keyOf : R → String
  count : slots.length = db.columns.length
  distinct : db.columnNames.Nodup
  indexed : (db.columns.filter (·.field.index)).map (fun c => c.name.read) = [keyName.read]
  keyed : ∀ r, (db.columnNames.zip (toRecord r).values).lookup keyName.read = some (text (keyOf r))
  toRecord_ofRecord : ∀ t, toRecord (ofRecord t) = t

variable {R : Type} (m : Mapping R)

/-- The record as it comes back from its row. -/
def Mapping.restored (r : R) : R := m.ofRecord (m.toRecord r)

theorem text_injective : Function.Injective text := fun _ _ h => by simpa [text] using h

theorem Mapping.key_mem : m.keyName.read ∈ m.db.columnNames := by
  have hmem : m.keyName.read ∈ (m.db.columns.filter (·.field.index)).map fun c => c.name.read := by
    rw [m.indexed]
    exact List.mem_singleton_self _
  obtain ⟨c, hc, heq⟩ := List.mem_map.mp hmem
  exact List.mem_map.mpr ⟨c, List.mem_of_mem_filter hc, heq⟩

theorem Mapping.length_values (r : R) : (m.toRecord r).values.length = m.db.columns.length := by
  rw [Tuple.length_values, m.count]

def Mapping.layout : Layout Slot R String where
  name := m.db.tableName.read
  columns := m.db.columnNames
  key := m.keyName.read
  pairs r := m.db.columnNames.zip (m.toRecord r).values
  keyOf := m.keyOf
  value := text
  distinct := m.distinct
  key_mem := m.key_mem
  named r := List.map_fst_zip (by rw [columnNames_length, m.length_values])
  keyed := m.keyed
  injective := text_injective

theorem toRecord_restored (r : R) : m.toRecord (m.restored r) = m.toRecord r :=
  m.toRecord_ofRecord _

theorem pairs_restored (r : R) : m.layout.pairs (m.restored r) = m.layout.pairs r := by
  simp only [Mapping.layout, toRecord_restored]

/-! ## The calls -/

section Calls

variable (t : Sql.Table Slot)

/-- `none`: the session or the statement raises an exception. -/
def attempt {α : Type} (served : Bool) (x : Option α) : Option α := if served then x else none

/-- What a call answers, and what it leaves behind. -/
def changed {σ : Type} (t : σ) (after : Option σ) : Bool × σ :=
  match after with
  | some t' => (true, t')
  | none => (false, t)

def createRecord (served : Bool) (r : R) : Bool × Sql.Table Slot :=
  changed t <| attempt served <|
    (readInsert (m.db.prepare m.db.insertStatement)).bind (·.exec (m.toRecord r).values t)

def getRecord (served : Bool) (fieldName : Name) (v : Slot) : Option R :=
  (attempt served <|
    (readSelect (m.db.prepare (m.db.selectStatement fieldName))).bind (·.exec [v] t)).join.bind
      fun vs => (Tuple.ofValues? m.slots vs).map m.ofRecord

def updateRecord (served : Bool) (fieldName : Name) (v : Slot) (r : R) : Bool × Sql.Table Slot :=
  changed t <| attempt served <|
    (readUpdate (m.db.prepare (m.db.updateStatement fieldName))).bind
      (·.exec ((m.toRecord r).values ++ [v]) t)

/-- `Exists`. -/
def recordExists (served : Bool) (fieldName : Name) (v : Slot) : Bool :=
  (getRecord m t served fieldName v).isSome

def replaceRecord (found written : Bool) (fieldName : Name) (v : Slot) (r : R) :
    Bool × Sql.Table Slot :=
  if recordExists m t found fieldName v then updateRecord m t written fieldName v r
  else createRecord m t written r

def deleteRecord (served : Bool) (fieldName : Name) (v : Slot) : Bool × Sql.Table Slot :=
  changed t <| attempt served <|
    (readDelete (m.db.prepare (m.db.deleteStatement fieldName))).bind (·.exec [v] t)

end Calls

/-! ## What the calls do to the records -/

section Stored

variable (s : Store m.layout.keyOf) (served : Bool) (k : String) (r : R)

theorem attempt_map {α β : Type} (f : α → β) (x : Option α) :
    attempt served (x.map f) = (attempt served x).map f := by
  cases served <;> rfl

theorem changed_map {σ τ : Type} (f : σ → τ) (t : σ) (x : Option σ) :
    changed (f t) (x.map f) = Prod.map id f (changed t x) := by
  cases x <;> rfl

theorem createRecord_table : createRecord m (m.layout.table s) served r =
    Prod.map id m.layout.table (changed s (attempt served (s.create (m.restored r)))) := by
  have hexec : (readInsert (m.db.prepare m.db.insertStatement)).bind
      (·.exec (m.toRecord r).values (m.layout.table s)) =
        (s.create (m.restored r)).map m.layout.table := by
    rw [DB.prepare, readInsert_insert, Option.bind_some, Insert.exec]
    refine (if_pos rfl).trans ?_
    rw [run_insert _ _ _ (m.length_values r), Option.bind_some, ← Layout.table_insert,
      pairs_restored]
    rfl
  rw [createRecord, hexec, attempt_map, changed_map]

theorem updateRecord_table :
    updateRecord m (m.layout.table s) served m.keyName (text k) r =
      Prod.map id m.layout.table (changed s (attempt served (s.update k (m.restored r)))) := by
  have hexec : (readUpdate (m.db.prepare (m.db.updateStatement m.keyName))).bind
      (·.exec ((m.toRecord r).values ++ [text k]) (m.layout.table s)) =
        (s.update k (m.restored r)).map m.layout.table := by
    rw [DB.prepare, readUpdate_update, Option.bind_some, Update.exec]
    refine (if_pos rfl).trans ?_
    rw [run_update _ _ _ _ (m.length_values r), Option.bind_some, ← Layout.table_update,
      pairs_restored]
    rfl
  rw [updateRecord, hexec, attempt_map, changed_map]

theorem deleteRecord_table : deleteRecord m (m.layout.table s) served m.keyName (text k) =
    Prod.map id m.layout.table (changed s (attempt served (some (s.delete k)))) := by
  have hexec : (readDelete (m.db.prepare (m.db.deleteStatement m.keyName))).bind
      (·.exec [text k] (m.layout.table s)) = (some (s.delete k)).map m.layout.table := by
    have hargument := placeholder_argument m.db.type [text k] 0
    rw [DB.prepare, readDelete_delete, Option.bind_some, Delete.exec]
    refine (if_pos rfl).trans ?_
    rw [hargument]
    exact m.layout.table_delete s k
  rw [deleteRecord, hexec, attempt_map, changed_map]

theorem getRecord_table : getRecord m (m.layout.table s) served m.keyName (text k) =
    attempt served ((s.get k).map m.restored) := by
  have hexec : (readSelect (m.db.prepare (m.db.selectStatement m.keyName))).bind
      (·.exec [text k] (m.layout.table s)) =
        some ((s.get k).map fun r => (m.toRecord r).values) := by
    have hvalues (r : R) : (m.layout.pairs r).map (·.2) = (m.toRecord r).values :=
      List.map_snd_zip (by rw [columnNames_length, m.length_values])
    have hargument := placeholder_argument m.db.type [text k] 0
    rw [DB.prepare, readSelect_select, Option.bind_some, Select.exec]
    refine (if_pos rfl).trans ?_
    rw [hargument]
    refine (m.layout.table_select s k).trans ?_
    simp only [hvalues]
  rw [getRecord, hexec]
  cases served with
  | false => rfl
  | true =>
    cases hget : s.get k with
    | none => rfl
    | some r => simp [attempt, Tuple.ofValues?_values, Mapping.restored]

end Stored

/-! ## Whole sessions -/

/-- A call on a table, by the key. The accesses of a call are served, or the database raises an
exception. -/
inductive Access (R : Type) where
  | create (r : R) (served : Bool)
  | get (k : String) (served : Bool)
  | exists_ (k : String) (served : Bool)
  | update (k : String) (r : R) (served : Bool)
  | replace (k : String) (r : R) (found written : Bool)
  | delete (k : String) (served : Bool)

structure Answer (R : Type) where
  done : Bool
  record : Option R := none

def perform (t : Sql.Table Slot) : Access R → Answer R × Sql.Table Slot
  | .create r served => (createRecord m t served r).map (fun done => ⟨done, none⟩) id
  | .get k served =>
    let record := getRecord m t served m.keyName (text k)
    (⟨record.isSome, record⟩, t)
  | .exists_ k served => (⟨recordExists m t served m.keyName (text k), none⟩, t)
  | .update k r served =>
    (updateRecord m t served m.keyName (text k) r).map (fun done => ⟨done, none⟩) id
  | .replace k r found written =>
    (replaceRecord m t found written m.keyName (text k) r).map (fun done => ⟨done, none⟩) id
  | .delete k served =>
    (deleteRecord m t served m.keyName (text k)).map (fun done => ⟨done, none⟩) id

/-- What the calls mean: a list of records, each as it comes back from its row. -/
def performOn (s : Store m.layout.keyOf) : Access R → Answer R × Store m.layout.keyOf
  | .create r served =>
    (changed s (attempt served (s.create (m.restored r)))).map (fun done => ⟨done, none⟩) id
  | .get k served =>
    let record := attempt served ((s.get k).map m.restored)
    (⟨record.isSome, record⟩, s)
  | .exists_ k served => (⟨served && (s.get k).isSome, none⟩, s)
  | .update k r served =>
    (changed s (attempt served (s.update k (m.restored r)))).map (fun done => ⟨done, none⟩) id
  | .replace k r found written =>
    let after := if found && (s.get k).isSome then s.update k (m.restored r)
      else s.create (m.restored r)
    (changed s (attempt written after)).map (fun done => ⟨done, none⟩) id
  | .delete k served =>
    (changed s (attempt served (some (s.delete k)))).map (fun done => ⟨done, none⟩) id

theorem recordExists_table (s : Store m.layout.keyOf) (served : Bool) (k : String) :
    recordExists m (m.layout.table s) served m.keyName (text k) =
      (served && (s.get k).isSome) := by
  rw [recordExists, getRecord_table]
  cases served with
  | false => rfl
  | true => simp [attempt]

theorem perform_table (s : Store m.layout.keyOf) (a : Access R) :
    perform m (m.layout.table s) a = (performOn m s a).map id m.layout.table := by
  cases a with
  | create r served =>
    simp only [perform, performOn, createRecord_table, Prod.map_map]
    rfl
  | get k served =>
    simp only [perform, performOn, getRecord_table]
    rfl
  | exists_ k served =>
    simp only [perform, performOn, recordExists_table]
    rfl
  | update k r served =>
    simp only [perform, performOn, updateRecord_table, Prod.map_map]
    rfl
  | replace k r found written =>
    simp only [perform, performOn, replaceRecord, recordExists_table]
    split
    · simp only [updateRecord_table, Prod.map_map]
      rfl
    · simp only [createRecord_table, Prod.map_map]
      rfl
  | delete k served =>
    simp only [perform, performOn, deleteRecord_table, Prod.map_map]
    rfl

/-- A table, or what stands for it, and the answers so far. -/
structure Session (σ A : Type) where
  state : σ
  answers : List A := []

section Sessions

variable {σ τ C A : Type}

def Session.step (call : σ → C → A × σ) (x : Session σ A) (c : C) : Option (Session σ A) :=
  some ⟨(call x.state c).2, x.answers ++ [(call x.state c).1]⟩

theorem session_map {call : σ → C → A × σ} {mean : τ → C → A × τ} {f : τ → σ} {as : List C}
    (h : ∀ a ∈ as, ∀ t, call (f t) a = (mean t a).map id f) (t : τ) (answers : List A) :
    run (Session.step call) ⟨f t, answers⟩ as =
      (run (Session.step mean) ⟨t, answers⟩ as).map fun x => ⟨f x.state, x.answers⟩ := by
  induction as generalizing t answers with
  | nil => rfl
  | cons a as ih =>
    rw [List.forall_mem_cons] at h
    have hstep : Session.step call ⟨f t, answers⟩ a =
        some ⟨f (mean t a).2, answers ++ [(mean t a).1]⟩ := by
      rw [Session.step, h.1]
      rfl
    rw [run_cons, hstep, Option.bind_some, ih h.2]
    rfl

theorem session_total (call : σ → C → A × σ) (x : Session σ A) (as : List C) :
    ∃ y, run (Session.step call) x as = some y := by
  induction as generalizing x with
  | nil => exact ⟨x, rfl⟩
  | cons a as ih => exact ih _

end Sessions

/-- **Refinement.** In every session, also with accesses that fail, the statements answer as the
list of records does, and leave the rows of its records. -/
theorem session_exact (s : Store m.layout.keyOf) (answers : List (Answer R))
    (as : List (Access R)) :
    run (Session.step (perform m)) ⟨m.layout.table s, answers⟩ as =
      (run (Session.step (performOn m)) ⟨s, answers⟩ as).map
        fun x => ⟨m.layout.table x.state, x.answers⟩ :=
  session_map (fun a _ s => perform_table m s a) s answers

/-! ## The two tables -/

def simulations (type : DBType) : Mapping SimulationDetails where
  db := simulationDB type
  slots := simulationDBSlots
  toRecord := SimulationDetails.toRecord
  ofRecord := SimulationDetails.ofRecord
  keyName := ⟨"id", by decide⟩
  keyOf := (·.id)
  count := rfl
  distinct := by cases type <;> decide +kernel
  indexed := by cases type <;> decide +kernel
  keyed _ := rfl
  toRecord_ofRecord _ := rfl

def simulationResults (type : DBType) : Mapping SimulationStatus where
  db := simulationResultsDB type
  slots := simulationResultsDBSlots
  toRecord := SimulationStatus.toRecord
  ofRecord r := SimulationStatus.ofRecord r {}
  keyName := ⟨"id", by decide⟩
  keyOf := (·.id)
  count := rfl
  distinct := by cases type <;> decide +kernel
  indexed := by cases type <;> decide +kernel
  keyed _ := rfl
  toRecord_ofRecord _ := rfl

/-- A record is only put in the place of one with its key. -/
def Access.Own (keyOf : R → String) : Access R → Prop
  | .update k r _ | .replace k r _ _ => keyOf r = k
  | .create _ _ | .get _ _ | .exists_ _ _ | .delete _ _ => True

def put (t : SimulationDB) (r : SimulationDetails) : SimulationDB :=
  if (t.getRecord r.id).isSome then t.put r else t

/-- The calls on the table of definitions that the handlers work with. -/
def performOnDefinitions (t : SimulationDB) :
    Access SimulationDetails → Answer SimulationDetails × SimulationDB
  | .create r served =>
    (changed t (attempt served (t.createRecord r))).map (fun done => ⟨done, none⟩) id
  | .get k served =>
    let record := attempt served (t.getRecord k)
    (⟨record.isSome, record⟩, t)
  | .exists_ k served => (⟨served && (t.getRecord k).isSome, none⟩, t)
  | .update _ r served => (⟨served, none⟩, if served then put t r else t)
  | .replace k r found written =>
    if found && (t.getRecord k).isSome then (⟨written, none⟩, if written then t.put r else t)
    else (changed t (attempt written (t.createRecord r))).map (fun done => ⟨done, none⟩) id
  | .delete k served => (⟨served, none⟩, if served then t.deleteRecord k else t)

section Definitions

variable {type : DBType}

def definitions (s : Store (simulations type).layout.keyOf) : SimulationDB where
  getRecord := s.get
  id_eq _ _ h := Store.key_of_get h

theorem definitions_eq {s : Store (simulations type).layout.keyOf} {t : SimulationDB}
    (h : ∀ k, s.get k = t.getRecord k) : definitions s = t := by
  obtain ⟨get, _⟩ := t
  have hget : s.get = get := funext h
  subst hget
  rfl

theorem restored_definition (r : SimulationDetails) : (simulations type).restored r = r := rfl

theorem create_definitions (s : Store (simulations type).layout.keyOf) (r : SimulationDetails) :
    (definitions s).createRecord r = (s.create r).map definitions := by
  cases hcreate : s.create r with
  | none =>
    have hsome : (s.get r.id).isSome := Store.create_eq_none.mp hcreate
    have hnone : ¬ (s.get r.id).isNone := by simp [Option.isSome_iff_ne_none.mp hsome]
    exact if_neg hnone
  | some s' =>
    have hnone : (s.get r.id).isNone := by
      by_contra hne
      have hsome : (s.get r.id).isSome := by simpa [Option.isSome_iff_ne_none] using hne
      rw [Store.create_eq_none.mpr hsome] at hcreate
      cases hcreate
    refine (if_pos hnone).trans (congrArg some (definitions_eq fun k => ?_).symm)
    exact (Store.get_create hcreate k).trans (Function.update_apply ..).symm

theorem getRecord_put (t : SimulationDB) (r : SimulationDetails) (k : String) :
    (put t r).getRecord k = if k = r.id then (t.getRecord k).map fun _ => r else t.getRecord k := by
  have hput : (t.put r).getRecord k = if k = r.id then some r else t.getRecord k :=
    Function.update_apply ..
  rw [put]
  cases hget : t.getRecord r.id with
  | none =>
    rw [if_neg (by simp)]
    split
    · rename_i hk
      rw [hk, hget]
      rfl
    · rfl
  | some x =>
    rw [Option.isSome_some, if_pos rfl, hput]
    split
    · rename_i hk
      rw [hk, hget]
      rfl
    · rfl

theorem update_definitions (s : Store (simulations type).layout.keyOf) (r : SimulationDetails) :
    ∃ s', s.update r.id r = some s' ∧ definitions s' = put (definitions s) r := by
  obtain ⟨s', hs', hget⟩ := s.update_own r
  exact ⟨s', hs', definitions_eq fun k => (hget k).trans (getRecord_put (definitions s) r k).symm⟩

theorem delete_definitions (s : Store (simulations type).layout.keyOf) (k : String) :
    definitions (s.delete k) = (definitions s).deleteRecord k :=
  definitions_eq fun k' => (Store.get_delete k k').trans (Function.update_apply ..).symm

theorem perform_definitions (s : Store (simulations type).layout.keyOf)
    {a : Access SimulationDetails} (ha : a.Own (·.id)) :
    performOnDefinitions (definitions s) a =
      (performOn (simulations type) s a).map id definitions := by
  cases a with
  | create r served =>
    simp only [performOnDefinitions, performOn, create_definitions, restored_definition,
      attempt_map, changed_map, Prod.map_map]
    rfl
  | get k served =>
    have hget : (definitions s).getRecord k = (s.get k).map (simulations type).restored := by
      cases hk : s.get k <;> simp [definitions, hk, restored_definition]
    simp only [performOnDefinitions, performOn, hget]
    rfl
  | exists_ k served => rfl
  | update k r served =>
    obtain rfl : r.id = k := ha
    obtain ⟨s', hs', hput⟩ := update_definitions s r
    simp only [performOnDefinitions, performOn, restored_definition, hs', ← hput]
    cases served <;> rfl
  | replace k r found written =>
    obtain rfl : r.id = k := ha
    simp only [performOnDefinitions, performOn, restored_definition, create_definitions]
    have hfind : (definitions s).getRecord r.id = s.get r.id := rfl
    rw [hfind]
    split
    · rename_i hfound
      obtain ⟨s', hs', hput⟩ := update_definitions s r
      rw [put, hfind, if_pos (Bool.and_eq_true_iff.mp hfound).2] at hput
      rw [hs', ← hput]
      cases written <;> rfl
    · rw [attempt_map, changed_map]
      rfl
  | delete k served =>
    simp only [performOnDefinitions, performOn, ← delete_definitions]
    cases served <;> rfl

/-- In every session that updates each record under its own key, the statements answer as the
table of definitions does, and `GetRecord` finds at the end what that table has. -/
theorem definitions_exact (s : Store (simulations type).layout.keyOf)
    {as : List (Access SimulationDetails)} (has : ∀ a ∈ as, a.Own (·.id)) :
    ∃ s' answers,
      run (Session.step (perform (simulations type))) ⟨(simulations type).layout.table s, []⟩ as =
        some ⟨(simulations type).layout.table s', answers⟩ ∧
      run (Session.step performOnDefinitions) ⟨definitions s, []⟩ as =
        some ⟨definitions s', answers⟩ := by
  obtain ⟨y, hy⟩ := session_total (performOn (simulations type)) ⟨s, []⟩ as
  refine ⟨y.state, y.answers, ?_, ?_⟩
  · rw [session_exact, hy]
    rfl
  · rw [session_map (fun a ha s => perform_definitions s (has a ha)), hy]
    rfl

end Definitions

abbrev renamed : List (Access SimulationDetails) :=
  [.create { id := "1", name := "a" } true, .replace "1" { id := "1", name := "b" } true true,
   .get "1" true]

theorem definitions_exact_renamed : ∃ s' answers,
    run (Session.step (perform (simulations .pgsql)))
        ⟨(simulations .pgsql).layout.table {}, []⟩ renamed =
      some ⟨(simulations .pgsql).layout.table s', answers⟩ ∧
    run (Session.step performOnDefinitions) ⟨@definitions .pgsql {}, []⟩ renamed =
      some ⟨definitions s', answers⟩ :=
  definitions_exact {} (by simp [Access.Own])

theorem createRecord_results (type : DBType) (s : Store (simulationResults type).layout.keyOf)
    (written : Bool) (r : SimulationStatus) :
    (changed s (attempt written (s.create ((simulationResults type).restored r)))).2.records =
      SimulationResultsDB.createRecord s.records r written := by
  have hrow : (simulationResults type).restored r = r.row := SimulationStatus.ofRecord_toRecord r
  have hmem : (simulationResults type).layout.keyOf r.row ∉
      s.records.map (simulationResults type).layout.keyOf ↔
        s.records.all (·.id != r.id) = true := by
    have hkey (x : SimulationStatus) : (simulationResults type).layout.keyOf x = x.id := rfl
    have hid : r.row.id = r.id := rfl
    simp only [List.mem_map, hkey, hid, List.all_eq_true, bne_iff_ne, not_exists, not_and, ne_eq]
  cases written with
  | false => rfl
  | true =>
    rw [hrow, SimulationResultsDB.createRecord, Bool.true_and]
    by_cases h : s.records.all (·.id != r.id) = true
    · rw [if_pos h, Store.create, dif_pos (hmem.mpr h)]
      rfl
    · rw [if_neg h, Store.create, dif_neg fun hnot => h (hmem.mp hnot)]
      rfl

end Owls.ORM
