import Mathlib.Data.List.Nodup
import Owls.Base.Placeholders

/-!
# Tables with a primary key

What statements with placeholders do to the rows of a table, no two of which have one value of
the key, and when such a table holds what a list of records says.
-/

namespace Sql

/-- A selection of at most one row. -/
structure Select where
  columns : List String
  table : String
  condition : String × Placeholder
deriving DecidableEq

structure Delete where
  table : String
  condition : String × Placeholder
deriving DecidableEq

def parseSelect : List Token → Option Select
  | .word "select" :: ts => do
    let (columns, ts) ← parseMany parseName ts.length ts
    match ts with
    | .word "from" :: .word table :: .word "where" :: ts => do
      match ← parseAssignment ts with
      | (condition, [.word "limit", .number "1"]) => return { columns, table, condition }
      | _ => none
    | _ => none
  | _ => none

def parseDelete : List Token → Option Delete
  | .word "delete" :: .word "from" :: .word table :: .word "where" :: ts => do
    match ← parseAssignment ts with
    | (condition, []) => return { table, condition }
    | _ => none
  | _ => none

def readSelect (s : String) : Option Select := (lex s).bind parseSelect

def readDelete (s : String) : Option Delete := (lex s).bind parseDelete

/-! ## Tables -/

variable {α : Type}

/-- The value of each column, if it has one. -/
abbrev Row (α : Type) := String → Option α

def rowOf (pairs : List (String × α)) : Row α := fun column => pairs.lookup column

structure Table (α : Type) where
  name : String
  columns : List String
  key : String
  rows : List (Row α) := []
  unique : (rows.map (· key)).Nodup := by exact List.nodup_nil

namespace Table

variable [DecidableEq α] (t : Table α)

/-- Each name is of a column, and none is named twice. -/
def names (columns : List String) : Bool :=
  columns.all (t.columns.contains ·) && decide columns.Nodup

/-- `none`: the statement is refused. -/
def insert (pairs : List (String × α)) : Option (Table α) :=
  if h : t.names (pairs.map (·.1)) ∧ (rowOf pairs t.key).isSome ∧
      rowOf pairs t.key ∉ t.rows.map (· t.key) then
    some { t with
      rows := t.rows ++ [rowOf pairs]
      unique := by simpa [List.nodup_append] using ⟨t.unique, by simpa using h.2.2⟩ }
  else none

/-- The row after its assignments. -/
def assign (sets : List (String × α)) (row : Row α) : Row α :=
  fun column => (sets.lookup column).or (row column)

def updated (sets : List (String × α)) (c : String) (v : α) : List (Row α) :=
  t.rows.map fun row => if row c = some v then assign sets row else row

def update (sets : List (String × α)) (c : String) (v : α) : Option (Table α) :=
  if h : t.names (sets.map (·.1)) ∧ t.columns.contains c ∧
      ((t.updated sets c v).map (· t.key)).Nodup then
    some { t with rows := t.updated sets c v, unique := h.2.2 }
  else none

def delete (c : String) (v : α) : Option (Table α) :=
  if t.columns.contains c then
    some { t with
      rows := t.rows.filter fun row => row c ≠ some v
      unique := t.unique.sublist (List.filter_sublist.map _) }
  else none

/-- The inner `none`: no row has this value. -/
def select (columns : List String) (c : String) (v : α) : Option (Option (List α)) :=
  if columns.all (t.columns.contains ·) && t.columns.contains c then
    match t.rows.find? fun row => row c = some v with
    | none => some none
    | some row => (columns.mapM row).map some
  else none

end Table

/-! ## Statements -/

section Statements

variable [DecidableEq α]

def Insert.exec (s : Insert) (args : List α) (t : Table α) : Option (Table α) :=
  if s.table = t.name then (s.run args).bind t.insert else none

def Update.exec (s : Update) (args : List α) (t : Table α) : Option (Table α) :=
  if s.table = t.name then (s.run args).bind fun (sets, c, v) => t.update sets c v else none

def Delete.exec (s : Delete) (args : List α) (t : Table α) : Option (Table α) :=
  if s.table = t.name then (s.condition.2.argument args 0).bind (t.delete s.condition.1) else none

def Select.exec (s : Select) (args : List α) (t : Table α) : Option (Option (List α)) :=
  if s.table = t.name then
    (s.condition.2.argument args 0).bind (t.select s.columns s.condition.1)
  else none

end Statements

/-! ## Records under their keys -/

/-- The records in the order in which they came, no two with one key. -/
structure Store {R K : Type} (keyOf : R → K) where
  records : List R := []
  unique : (records.map keyOf).Nodup := by exact List.nodup_nil

namespace Store

variable {R K : Type} [DecidableEq K] {keyOf : R → K} (s : Store keyOf)

/-- `none`: the key is in use. -/
def create (r : R) : Option (Store keyOf) :=
  if h : keyOf r ∉ s.records.map keyOf then
    some { records := s.records ++ [r]
           unique := by simpa [List.nodup_append] using ⟨s.unique, by simpa using h⟩ }
  else none

def replaced (k : K) (r : R) : List R := s.records.map fun x => if keyOf x = k then r else x

/-- `none`: the record has a key that another one has. -/
def update (k : K) (r : R) : Option (Store keyOf) :=
  if h : ((s.replaced k r).map keyOf).Nodup then some ⟨s.replaced k r, h⟩ else none

def delete (k : K) : Store keyOf :=
  ⟨s.records.filter fun r => keyOf r ≠ k, s.unique.sublist (List.filter_sublist.map _)⟩

def get (k : K) : Option R := s.records.find? fun r => keyOf r = k

variable {s} {s' : Store keyOf} {r : R}

theorem isSome_get (k : K) : (s.get k).isSome ↔ k ∈ s.records.map keyOf := by
  simp [get, List.find?_isSome]

theorem key_of_get {k : K} (h : s.get k = some r) : keyOf r = k := by
  simpa using List.find?_some h

theorem create_eq_none : s.create r = none ↔ (s.get (keyOf r)).isSome := by
  rw [isSome_get, create, dite_eq_right_iff]
  simp

theorem get_create (h : s.create r = some s') (k : K) :
    s'.get k = if k = keyOf r then some r else s.get k := by
  by_cases hnew : keyOf r ∉ s.records.map keyOf
  · rw [create, dif_pos hnew, Option.some.injEq] at h
    subst h
    simp only [get, List.find?_append, List.find?_singleton, decide_eq_true_eq]
    by_cases hk : k = keyOf r
    · subst hk
      have hnone : s.get (keyOf r) = none := by
        rw [← Option.not_isSome_iff_eq_none, isSome_get]
        exact hnew
      rw [get] at hnone
      simp [hnone]
    · simp [hk, Ne.symm hk]
  · rw [create, dif_neg hnew] at h
    cases h

theorem get_delete (k k' : K) : (s.delete k).get k' = if k' = k then none else s.get k' := by
  simp only [delete, get, List.find?_filter]
  split
  · rename_i hk
    subst hk
    rw [List.find?_eq_none]
    simp
  · rename_i hk
    refine congrFun (congrArg List.find? (funext fun x => ?_)) s.records
    by_cases hx : keyOf x = k'
    · simp [hx, hk]
    · simp [hx]

theorem update_own (s : Store keyOf) (r : R) : ∃ s', s.update (keyOf r) r = some s' ∧
    ∀ k, s'.get k = if k = keyOf r then (s.get k).map fun _ => r else s.get k := by
  have hkeys : (s.replaced (keyOf r) r).map keyOf = s.records.map keyOf := by
    rw [replaced, List.map_map]
    refine List.map_congr_left fun x _ => ?_
    simp only [Function.comp_apply]
    split
    · rename_i hx
      exact hx.symm
    · rfl
  refine ⟨_, dif_pos (hkeys ▸ s.unique), fun k => ?_⟩
  have hsame : ((fun x => decide (keyOf x = k)) ∘ fun x => if keyOf x = keyOf r then r else x) =
      fun x => decide (keyOf x = k) := by
    funext x
    simp only [Function.comp_apply]
    split
    · rename_i hx
      rw [hx]
    · rfl
  simp only [get, replaced, List.find?_map, hsame]
  cases hget : s.records.find? fun x => keyOf x = k with
  | none => simp
  | some x =>
    have hx : keyOf x = k := key_of_get hget
    simp only [Option.map_some, hx]
    split <;> rfl

end Store

/-- How records stand in a table: every column has its value, and the key has one of its own. -/
structure Layout (α R K : Type) where
  name : String
  columns : List String
  key : String
  pairs : R → List (String × α)
  keyOf : R → K
  value : K → α
  distinct : columns.Nodup
  key_mem : key ∈ columns
  named : ∀ r, (pairs r).map (·.1) = columns
  keyed : ∀ r, (pairs r).lookup key = some (value (keyOf r))
  injective : Function.Injective value

namespace Layout

variable {R K : Type} (l : Layout α R K)

theorem keys_eq (rs : List R) : (rs.map fun r => rowOf (l.pairs r)).map (· l.key) =
    (rs.map l.keyOf).map fun k => some (l.value k) := by
  simp only [List.map_map]
  exact List.map_congr_left fun r _ => l.keyed r

theorem some_injective : Function.Injective fun k => some (l.value k) :=
  fun _ _ h => l.injective (Option.some.inj h)

theorem keys_nodup (rs : List R) :
    ((rs.map fun r => rowOf (l.pairs r)).map (· l.key)).Nodup ↔ (rs.map l.keyOf).Nodup := by
  rw [keys_eq]
  exact List.nodup_map_iff l.some_injective

/-- The table of the records. -/
def table (s : Store l.keyOf) : Table α where
  name := l.name
  columns := l.columns
  key := l.key
  rows := s.records.map fun r => rowOf (l.pairs r)
  unique := (l.keys_nodup s.records).mpr s.unique

theorem row_key (r : R) : rowOf (l.pairs r) l.key = some (l.value (l.keyOf r)) := l.keyed r

theorem names_pairs (s : Store l.keyOf) (r : R) :
    (l.table s).names ((l.pairs r).map (·.1)) = true := by
  rw [l.named r]
  simp [Table.names, table, l.distinct]

theorem lookup_none_iff (r : R) (c : String) : (l.pairs r).lookup c = none ↔ c ∉ l.columns := by
  rw [List.lookup_eq_none_iff, ← l.named r, List.mem_map, not_exists]
  constructor
  · rintro h p ⟨hp, rfl⟩
    simpa using h p hp
  · intro h p hp
    simpa using fun heq : c = p.1 => h p ⟨hp, heq.symm⟩

theorem assign_pairs (r x : R) :
    Table.assign (l.pairs r) (rowOf (l.pairs x)) = rowOf (l.pairs r) := by
  funext c
  cases hc : (l.pairs r).lookup c with
  | some v => simp [Table.assign, rowOf, hc]
  | none =>
    have hx : (l.pairs x).lookup c = none := by
      rw [lookup_none_iff, ← l.lookup_none_iff r, hc]
    simp [Table.assign, rowOf, hc, hx]

theorem lookup_of_mem {β : Type} {ps : List (String × β)} (h : (ps.map (·.1)).Nodup) :
    ∀ p ∈ ps, ps.lookup p.1 = some p.2 := by
  induction ps with
  | nil => exact fun p hp => absurd hp List.not_mem_nil
  | cons q ps ih =>
    rw [List.map_cons, List.nodup_cons] at h
    intro p hp
    rcases List.mem_cons.mp hp with rfl | hp
    · exact List.lookup_cons_self
    · have hne : (p.1 == q.1) = false := by
        rw [beq_eq_false_iff_ne]
        exact fun heq => h.1 (heq ▸ List.mem_map_of_mem hp)
      rw [List.lookup_cons, hne]
      exact ih h.2 p hp

theorem mapM_fst {β : Type} {ps : List (String × β)} {f : String → Option β}
    (h : ∀ p ∈ ps, f p.1 = some p.2) : (ps.map (·.1)).mapM f = some (ps.map (·.2)) := by
  induction ps with
  | nil => rfl
  | cons p ps ih =>
    rw [List.forall_mem_cons] at h
    simp only [List.map_cons, List.mapM_cons, h.1, ih h.2, Option.bind_eq_bind, Option.bind_some]
    rfl

section Operations

variable [DecidableEq α] [DecidableEq K] (s : Store l.keyOf)

omit [DecidableEq α] [DecidableEq K] in
theorem row_key_iff (r : R) (k : K) :
    rowOf (l.pairs r) l.key = some (l.value k) ↔ l.keyOf r = k := by
  rw [row_key]
  exact l.some_injective.eq_iff

theorem table_insert (r : R) : (l.table s).insert (l.pairs r) = (s.create r).map l.table := by
  have hkey : rowOf (l.pairs r) l.key ∈ (l.table s).rows.map (· l.key) ↔
      l.keyOf r ∈ s.records.map l.keyOf := by
    have hkeys : (l.table s).rows.map (· l.key) =
        (s.records.map l.keyOf).map fun k => some (l.value k) := l.keys_eq s.records
    rw [hkeys, l.row_key]
    exact List.mem_map_of_injective l.some_injective
  have hsome : (rowOf (l.pairs r) l.key).isSome := by rw [l.row_key]; rfl
  by_cases h : l.keyOf r ∈ s.records.map l.keyOf
  · rw [Store.create, dif_neg (not_not_intro h)]
    exact dif_neg fun hall => hall.2.2 (hkey.mpr h)
  · rw [Store.create, dif_pos h]
    refine (dif_pos ⟨l.names_pairs s r, hsome, fun hmem => h (hkey.mp hmem)⟩).trans ?_
    simp [table]

theorem updated_eq (k : K) (r : R) : (l.table s).updated (l.pairs r) l.key (l.value k) =
    (s.replaced k r).map fun r => rowOf (l.pairs r) := by
  simp only [Table.updated, table, Store.replaced, List.map_map]
  refine List.map_congr_left fun x _ => ?_
  simp only [Function.comp_apply, row_key_iff, assign_pairs]
  split <;> rfl

theorem table_update (k : K) (r : R) : (l.table s).update (l.pairs r) l.key (l.value k) =
    (s.update k r).map l.table := by
  have hunique : (((l.table s).updated (l.pairs r) l.key (l.value k)).map (· l.key)).Nodup ↔
      ((s.replaced k r).map l.keyOf).Nodup := by
    rw [updated_eq]
    exact l.keys_nodup _
  have hcolumn : (l.table s).columns.contains l.key = true := by
    simpa [table] using l.key_mem
  by_cases h : ((s.replaced k r).map l.keyOf).Nodup
  · rw [Store.update, dif_pos h]
    refine (dif_pos ⟨l.names_pairs s r, hcolumn, hunique.mpr h⟩).trans ?_
    simp only [updated_eq, Option.map_some]
    rfl
  · rw [Store.update, dif_neg h]
    exact dif_neg fun hall => h (hunique.mp hall.2.2)

theorem table_delete (k : K) :
    (l.table s).delete l.key (l.value k) = some (l.table (s.delete k)) := by
  have hcolumn : (l.table s).columns.contains l.key = true := by
    simpa [table] using l.key_mem
  rw [Table.delete, if_pos hcolumn]
  simp [table, Store.delete, List.filter_map, Function.comp_def, row_key_iff]

theorem table_select (k : K) : (l.table s).select l.columns l.key (l.value k) =
    some ((s.get k).map fun r => (l.pairs r).map (·.2)) := by
  have hcolumns : (l.columns.all ((l.table s).columns.contains ·) &&
      (l.table s).columns.contains l.key) = true := by
    simp [table, l.key_mem]
  have hfind : (l.table s).rows.find? (fun row => row l.key = some (l.value k)) =
      (s.get k).map fun r => rowOf (l.pairs r) := by
    simp only [table, List.find?_map, Function.comp_def, row_key_iff]
    rfl
  have hvalues (r : R) : l.columns.mapM (rowOf (l.pairs r)) = some ((l.pairs r).map (·.2)) := by
    have hnodup : ((l.pairs r).map (·.1)).Nodup := by
      rw [l.named r]
      exact l.distinct
    rw [← l.named r]
    exact mapM_fst (lookup_of_mem hnodup)
  rw [Table.select, if_pos hcolumns, hfind]
  cases s.get k with
  | none => rfl
  | some r => simp only [Option.map_some, hvalues]

end Operations

end Layout

end Sql
