import Owls.Base.Clauses
import Owls.Base.Records

/-!
# Selections

Statements that select, count or delete the rows of a table by a condition, what a database does
with them, and what this is on a list of records.
-/

namespace Sql

structure Selection where
  columns : List String
  table : String
  condition : Option (Formula Comparing) := none
  /-- Columns, and whether the order is descending. -/
  order : List (String × Bool) := []
  /-- How many rows, after how many. -/
  limit : Option (Nat × Nat) := none

structure Counting where
  table : String
  condition : Option (Formula Comparing) := none

structure Deletion where
  table : String
  condition : Option (Formula Comparing) := none

/-- What a condition that may be left out says. -/
def saying : Option (Formula Comparing) → Meaning Comparing
  | none => Connective.and.join []
  | some f => f.meaning

/-! ## The parser -/

def parseClause : List Token → Option (Option (Formula Comparing) × List Token)
  | .word "where" :: ts =>
    (parseFormula parseComparing (3 * ts.length + 3) .or ts).map fun r => (some r.1, r.2)
  | ts => some (none, ts)

def parseItem : List Token → Option ((String × Bool) × List Token)
  | .word c :: .word "desc" :: ts => some ((c, true), ts)
  | .word c :: .word "asc" :: ts => some ((c, false), ts)
  | .word c :: ts => some ((c, false), ts)
  | _ => none

def parseOrdering : List Token → Option (List (String × Bool) × List Token)
  | .word "order" :: .word "by" :: ts => parseMany parseItem ts.length ts
  | .word "order" :: _ => none
  | ts => some ([], ts)

def parseSelection : List Token → Option Selection
  | .word "select" :: ts => do
    let (columns, ts) ← parseMany parseName ts.length ts
    match ts with
    | .word "from" :: .word table :: ts => do
      let (condition, ts) ← parseClause ts
      let (order, ts) ← parseOrdering ts
      let limit ← parseLimit ts
      return { columns, table, condition, order, limit }
    | _ => none
  | _ => none

def parseCounting : List Token → Option Counting
  | .word "select" :: .word "count" :: .symbol "(" :: .symbol "*" :: .symbol ")" ::
      .word "from" :: .word table :: ts => do
    match ← parseClause ts with
    | (condition, []) => return { table, condition }
    | _ => none
  | _ => none

def parseDeletion : List Token → Option Deletion
  | .word "delete" :: .word "from" :: .word table :: ts => do
    match ← parseClause ts with
    | (condition, []) => return { table, condition }
    | _ => none
  | _ => none

def readSelection (s : String) : Option Selection := (lex s).bind parseSelection

def readCounting (s : String) : Option Counting := (lex s).bind parseCounting

def readDeletion (s : String) : Option Deletion := (lex s).bind parseDeletion

/-! ## What the parser makes of their parts -/

section Parts

variable {cs ds : List Char} {ts us toks rest : List Token}

/-- The text goes on after another with these tokens. -/
def Continues (cs : List Char) (toks : List Token) : Prop :=
  ∀ ds ts, Lexes ds ts → Lexes (ds ++ cs) (ts ++ toks)

theorem continues_nil : Continues [] [] := fun ds ts h => by simpa using h

theorem Separates.continues (h : Separates cs us) : Continues cs us :=
  fun _ _ hlexes => (hlexes.separate h).lexes

theorem Separates.continues_lexes (h : Separates cs us) (h' : Lexes ds ts) :
    Continues (cs ++ ds) (us ++ ts) := by
  intro ds' ts' hlexes
  have hall := (hlexes.separate h).lexes_append h'
  simpa only [List.append_assoc] using hall

/-- What may stand after a condition. -/
def Closes (rest : List Token) : Prop :=
  ∀ t, rest.head? = some t → t = .word "order" ∨ t = .word "limit"

/-- What may stand after an order. -/
def Limits (rest : List Token) : Prop := ∀ t, rest.head? = some t → t = .word "limit"

theorem Limits.closes (h : Limits rest) : Closes rest := fun t ht => .inr (h t ht)

theorem Closes.stops (h : Closes rest) : Stops rest ∧ Level.or.Ends rest := by
  refine ⟨fun ht => ?_, fun ht => ?_, fun ht => ?_⟩ <;>
  · have hor := h _ ht
    simp at hor

theorem parseClause_closes (h : Closes rest) : parseClause rest = some (none, rest) := by
  unfold parseClause
  split
  · have hor := h _ rfl
    simp at hor
  · rfl

/-- A text that makes a condition, or none, of what stands before it. -/
def Filters (cs : List Char) (m : Meaning Comparing) : Prop :=
  ∃ toks condition, saying condition = m ∧ Continues cs toks ∧
    ∀ rest, Closes rest → parseClause (toks ++ rest) = some (condition, rest)

theorem filters_nil : Filters [] (Connective.and.join []) :=
  ⟨[], none, rfl, continues_nil, fun _ h => parseClause_closes h⟩

theorem Disjuncts.filters {m : Meaning Comparing} (h : Disjuncts cs m) :
    Filters (" where ".toList ++ cs) m := by
  obtain ⟨toks, hlexes, f, hf, hparse⟩ := h.meant
  have hwhere : Separates " where ".toList [.word "where"] := ⟨by decide, by decide⟩
  refine ⟨_, some f, hf, hwhere.continues_lexes hlexes, fun rest hrest => ?_⟩
  have hread := hparse (3 * (toks ++ rest).length + 3) rest hrest.stops.1 hrest.stops.2 (by
    simp only [List.length_append, Level.depth]
    omega)
  rw [List.cons_append, List.nil_append, List.cons_append, parseClause, hread]
  rfl

/-- A text that makes an order of these columns. -/
def Arranges (cs : List Char) (items : List (String × Bool)) : Prop :=
  ∃ toks, Continues cs toks ∧ ∀ rest, Limits rest →
    Closes (toks ++ rest) ∧ parseOrdering (toks ++ rest) = some (items, rest)

theorem arranges_nil : Arranges [] [] := by
  refine ⟨[], continues_nil, fun rest h => ⟨h.closes, ?_⟩⟩
  rw [List.nil_append]
  unfold parseOrdering
  split
  · have hlimit := h _ rfl
    simp at hlimit
  · have hlimit := h _ rfl
    simp at hlimit
  · rfl

def direction (descending : Bool) : Token := if descending then .word "desc" else .word "asc"

theorem parseItem_direction (c : String) (descending : Bool) (rest : List Token) :
    parseItem (.word c :: direction descending :: rest) = some ((c, descending), rest) := by
  cases descending <;> rfl

theorem arranges_items {items : List (String × Bool)} (hne : items ≠ [])
    (h : Continues cs (.word "order" :: .word "by" ::
      join (.symbol ",") (items.map fun i => [.word i.1, direction i.2]))) :
    Arranges cs items := by
  refine ⟨_, h, fun rest hrest => ⟨fun t ht => .inl (by simpa using ht.symm), ?_⟩⟩
  have hitem : ∀ p ∈ items.map fun i => ([Token.word i.1, direction i.2], i),
      p.1 ≠ [] ∧ ∀ rest, parseItem (p.1 ++ rest) = some (p.2, rest) :=
    List.forall_mem_map.mpr fun i _ =>
      ⟨List.cons_ne_nil _ _, fun rest => parseItem_direction i.1 i.2 rest⟩
  have hcomma : rest.head? ≠ some (.symbol ",") := by
    intro hcomma
    have hlimit := hrest _ hcomma
    simp at hlimit
  have hmany := parseMany_length parseItem _ (by simpa using hne) hitem hcomma
  simp only [List.map_map, Function.comp_def, List.map_id'] at hmany
  simpa only [List.cons_append, parseOrdering] using hmany

end Parts

/-! ## What a database does -/

/-- What differs from one database to another: how values and constants compare, and how it brings
rows into an order. Rows that compare alike may come in any order that does not look at them. -/
structure Dialect (α : Type) where
  holds : Comparison → α ⊕ Constant → α ⊕ Constant → Bool
  /-- The order of values, with `NULL` somewhere in it. -/
  before : Option α → Option α → Bool
  arrange : {R : Type} → (R → R → Bool) → List R → List R
  before_total : ∀ a b, before a b ∨ before b a
  before_trans : ∀ a b c, before a b → before b c → before a c
  arrange_perm : ∀ {R : Type} (le : R → R → Bool) (rs : List R), (arrange le rs).Perm rs
  arrange_sorted : ∀ {R : Type} (le : R → R → Bool) (rs : List R), (∀ a b, le a b ∨ le b a) →
    (∀ a b c, le a b → le b c → le a c) → (arrange le rs).Pairwise fun a b => le a b
  arrange_map : ∀ {R S : Type} (f : R → S) (le : S → S → Bool) (rs : List R),
    arrange le (rs.map f) = (arrange (fun a b => le (f a) (f b)) rs).map f

section Execution

variable {α : Type} (d : Dialect α)

def Term.value (row : Row α) : Term → Option (α ⊕ Constant)
  | .column c => (row c).map .inl
  | .constant k => some (.inr k)

def Term.columns : Term → List String
  | .column c => [c]
  | .constant _ => []

/-- Unknown where a value is `NULL`. -/
def Comparing.eval (row : Row α) (c : Comparing) : Option Bool := do
  return d.holds c.op (← c.left.value row) (← c.right.value row)

def Comparing.holds (row : Row α) (c : Comparing) : Bool := (c.eval d row).getD false

def Comparing.columns (c : Comparing) : List String := c.left.columns ++ c.right.columns

def meets (condition : Option (Formula Comparing)) (row : Row α) : Bool :=
  match condition with
  | none => true
  | some f => f.eval (Comparing.eval d row) == some true

def Meaning.columns (m : Meaning Comparing) : List String := m.atoms.flatMap Comparing.columns

def itemBefore (item : String × Bool) (r s : Row α) : Bool :=
  if item.2 then d.before (s item.1) (r item.1) else d.before (r item.1) (s item.1)

/-- By the first column, and by the others where the first does not tell. -/
def ordered : List (String × Bool) → Row α → Row α → Bool
  | [], _, _ => true
  | item :: items, r, s =>
    itemBefore d item r s && (!itemBefore d item s r || ordered items r s)

def slice {β : Type} (limit : Option (Nat × Nat)) (rows : List β) : List β :=
  match limit with
  | none => rows
  | some (howMany, offset) => (rows.drop offset).take howMany

def Table.knows (t : Table α) (columns : List String) : Bool := columns.all (t.columns.contains ·)

def Selection.exec (q : Selection) (t : Table α) : Option (List (List α)) :=
  if q.table = t.name ∧
      t.knows (q.columns ++ ((saying q.condition).columns ++ q.order.map (·.1))) then
    (slice q.limit (d.arrange (ordered d q.order) (t.rows.filter (meets d q.condition)))).mapM
      fun row => q.columns.mapM row
  else none

def Counting.exec (q : Counting) (t : Table α) : Option Nat :=
  if q.table = t.name ∧ t.knows (saying q.condition).columns then
    some (t.rows.countP (meets d q.condition))
  else none

def Deletion.exec (q : Deletion) (t : Table α) : Option (Table α) :=
  if q.table = t.name ∧ t.knows (saying q.condition).columns then
    some { t with
      rows := t.rows.filter fun row => !meets d q.condition row
      unique := t.unique.sublist (List.filter_sublist.map _) }
  else none

theorem slice_map {β γ : Type} (limit : Option (Nat × Nat)) (f : β → γ) (rows : List β) :
    slice limit (rows.map f) = (slice limit rows).map f := by
  unfold slice
  split
  · rfl
  · rw [List.map_take, List.map_drop]

/-! ### The order -/

theorem itemBefore_total (item : String × Bool) (r s : Row α) :
    itemBefore d item r s ∨ itemBefore d item s r := by
  unfold itemBefore
  split
  · exact d.before_total _ _
  · exact d.before_total _ _

theorem itemBefore_trans {item : String × Bool} {r s t : Row α} (h : itemBefore d item r s)
    (h' : itemBefore d item s t) : itemBefore d item r t := by
  obtain ⟨c, desc⟩ := item
  cases desc with
  | false => exact d.before_trans _ _ _ h h'
  | true => exact d.before_trans _ _ _ h' h

theorem ordered_total (items : List (String × Bool)) (r s : Row α) :
    ordered d items r s ∨ ordered d items s r := by
  induction items with
  | nil => exact .inl rfl
  | cons item items ih =>
    have htotal := itemBefore_total d item r s
    simp only [ordered, Bool.and_eq_true, Bool.or_eq_true, Bool.not_eq_true'] at *
    cases hrs : itemBefore d item r s <;> cases hsr : itemBefore d item s r <;> simp_all

theorem ordered_trans (items : List (String × Bool)) (r s t : Row α) (h : ordered d items r s)
    (h' : ordered d items s t) : ordered d items r t := by
  induction items with
  | nil => rfl
  | cons item items ih =>
    simp only [ordered, Bool.and_eq_true, Bool.or_eq_true, Bool.not_eq_true'] at *
    obtain ⟨hrs, hrs'⟩ := h
    obtain ⟨hst, hst'⟩ := h'
    refine ⟨itemBefore_trans d hrs hst, ?_⟩
    -- Where the first column does not tell `r` from `t`, it tells neither of them from `s`.
    by_cases htr : itemBefore d item t r = true
    · have hsr := itemBefore_trans d hst htr
      have hts := itemBefore_trans d htr hrs
      exact .inr (ih (by simpa [hsr] using hrs') (by simpa [hts] using hst'))
    · exact .inl (by simpa using htr)

/-! ### Conditions on rows without `NULL` -/

variable {d} {row : Row α}

theorem Term.isSome_value {t : Term} (h : ∀ c ∈ t.columns, (row c).isSome) :
    (t.value row).isSome := by
  cases t with
  | column c => simpa [Term.value] using h c (List.mem_singleton_self c)
  | constant k => rfl

theorem Comparing.eval_known {c : Comparing} (h : ∀ name ∈ c.columns, (row name).isSome) :
    c.eval d row = some (c.holds d row) := by
  obtain ⟨a, ha⟩ := Option.isSome_iff_exists.mp
    (Term.isSome_value fun name hname => h name (List.mem_append_left _ hname))
  obtain ⟨b, hb⟩ := Option.isSome_iff_exists.mp
    (Term.isSome_value fun name hname => h name (List.mem_append_right _ hname))
  simp [holds, eval, ha, hb]

theorem meets_known {condition : Option (Formula Comparing)}
    (h : ∀ name ∈ (saying condition).columns, (row name).isSome) :
    meets d condition row = (saying condition).holds (Comparing.holds d row) := by
  cases condition with
  | none => rfl
  | some f =>
    have hatoms : ∀ c ∈ f.atoms, c.eval d row = some (c.holds d row) := fun c hc =>
      Comparing.eval_known fun name hname => h name (List.mem_flatMap.mpr ⟨c, hc, hname⟩)
    simp [meets, Formula.eval_of_known hatoms, saying, Formula.meaning]

end Execution

/-! ## On a list of records -/

namespace Layout

variable {α R K : Type} (l : Layout α R K) (d : Dialect α)

def row (r : R) : Row α := rowOf (l.pairs r)

theorem isSome_row (r : R) {c : String} (h : c ∈ l.columns) : (l.row r c).isSome := by
  rw [row, rowOf, Option.isSome_iff_ne_none]
  exact fun hnone => (l.lookup_none_iff r c).mp hnone h

theorem mapM_row (r : R) : l.columns.mapM (l.row r) = some ((l.pairs r).map (·.2)) := by
  have hnodup : ((l.pairs r).map (·.1)).Nodup := by
    rw [l.named r]
    exact l.distinct
  rw [← l.named r]
  exact mapM_fst (lookup_of_mem hnodup)

theorem mapM_rows (rs : List R) :
    (rs.map l.row).mapM (fun row => l.columns.mapM row) =
      some (rs.map fun r => (l.pairs r).map (·.2)) := by
  induction rs with
  | nil => rfl
  | cons r rs ih => simp [l.mapM_row, ih]

variable (s : Store l.keyOf)

theorem knows_table {columns : List String} :
    (l.table s).knows columns ↔ ∀ c ∈ columns, c ∈ l.columns := by
  simp [Table.knows, table]

/-- The record meets what a condition says. -/
def chosen (m : Meaning Comparing) (r : R) : Bool := m.holds (Comparing.holds d (l.row r))

theorem meets_row {condition : Option (Formula Comparing)}
    (h : ∀ c ∈ (saying condition).columns, c ∈ l.columns) (r : R) :
    meets d condition (l.row r) = l.chosen d (saying condition) r :=
  meets_known fun c hc => l.isSome_row r (h c hc)

/-- The records that a selection gives. -/
def selected (m : Meaning Comparing) (order : List (String × Bool)) (limit : Option (Nat × Nat)) :
    List R :=
  slice limit (d.arrange (fun a b => ordered d order (l.row a) (l.row b))
    (s.records.filter (l.chosen d m)))

theorem exec_selection {q : Selection} (htable : q.table = l.name)
    (hcolumns : q.columns = l.columns)
    (hcondition : ∀ c ∈ (saying q.condition).columns, c ∈ l.columns)
    (horder : ∀ item ∈ q.order, item.1 ∈ l.columns) :
    q.exec d (l.table s) = some ((l.selected d s (saying q.condition) q.order q.limit).map fun r =>
      (l.pairs r).map (·.2)) := by
  have hknows : (l.table s).knows
      (q.columns ++ ((saying q.condition).columns ++ q.order.map (·.1))) := by
    rw [knows_table, hcolumns]
    intro c hc
    rcases List.mem_append.mp hc with hc | hc
    · exact hc
    · rcases List.mem_append.mp hc with hc | hc
      · exact hcondition c hc
      · obtain ⟨item, hitem, rfl⟩ := List.mem_map.mp hc
        exact horder item hitem
  have hrows : (l.table s).rows = s.records.map l.row := rfl
  have hmeets : meets d q.condition ∘ l.row = l.chosen d (saying q.condition) :=
    funext (l.meets_row d hcondition)
  rw [Selection.exec, if_pos ⟨htable, hknows⟩, hrows, hcolumns, List.filter_map, hmeets,
    d.arrange_map, slice_map, mapM_rows]
  rfl

theorem exec_counting {q : Counting} (htable : q.table = l.name)
    (hcondition : ∀ c ∈ (saying q.condition).columns, c ∈ l.columns) :
    q.exec d (l.table s) = some (s.records.countP (l.chosen d (saying q.condition))) := by
  have hrows : (l.table s).rows = s.records.map l.row := rfl
  have hmeets : meets d q.condition ∘ l.row = l.chosen d (saying q.condition) :=
    funext (l.meets_row d hcondition)
  rw [Counting.exec, if_pos ⟨htable, (l.knows_table s).mpr hcondition⟩, hrows, List.countP_map,
    hmeets]

end Layout

namespace Store

variable {R K : Type} {keyOf : R → K}

/-- Without the records that are chosen. -/
def without (s : Store keyOf) (chosen : R → Bool) : Store keyOf :=
  ⟨s.records.filter fun r => !chosen r, s.unique.sublist (List.filter_sublist.map _)⟩

end Store

theorem Layout.exec_deletion {α R K : Type} (l : Layout α R K) (d : Dialect α) (s : Store l.keyOf)
    {q : Deletion} (htable : q.table = l.name)
    (hcondition : ∀ c ∈ (saying q.condition).columns, c ∈ l.columns) :
    q.exec d (l.table s) = some (l.table (s.without (l.chosen d (saying q.condition)))) := by
  have hmeets : (fun r => !meets d q.condition (l.row r)) =
      fun r => !l.chosen d (saying q.condition) r :=
    funext fun r => congrArg _ (l.meets_row d hcondition r)
  have hrows : ((l.table s).rows.filter fun row => !meets d q.condition row) =
      (l.table (s.without (l.chosen d (saying q.condition)))).rows :=
    List.filter_map.trans (congrArg (fun p => (s.records.filter p).map l.row) hmeets)
  rw [Deletion.exec, if_pos ⟨htable, (l.knows_table s).mpr hcondition⟩]
  simp only [hrows]
  rfl

end Sql
