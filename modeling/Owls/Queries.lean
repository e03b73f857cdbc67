import Owls.Base.Selections
import Owls.OrderBy
import Owls.Records

/-!
# Queries

The statements of `GetRecords`, `Count` and `DeleteRecords`, with a condition that `OP` and
`WHERE_AND` make and an order that `PrepareOrderBy` makes, and what they are read as.
-/

open Rows Separators Sql

namespace Owls.ORM

/-! ## Conditions -/

/-- What the overloads of `OP` and `WHERE_AND` are given. -/
inductive Where where
  | op (field : Name) (o : SqlComparison) (v : Argument)
  | whereAnd (ps : List Pair)
  | two (p : Where) (b : SqlBinaryOp) (q : Where)
  | three (p : Where) (b : SqlBinaryOp) (q : Where) (c : SqlBinaryOp) (r : Where)

namespace Where

def text : Where → String
  | op field o v => ORM.op field.text o v
  | whereAnd ps => ORM.whereAnd (ps.map Pair.written)
  | two p b q => opOperands p.text b q.text []
  | three p b q c r => opOperands p.text b q.text [(c, r.text)]

end Where

def SqlBinaryOp.connective : SqlBinaryOp → Connective
  | .and => .and
  | .or => .or

namespace Where

/-- The comparisons, in their order, and when the condition holds. -/
def meaning : Where → Meaning Comparing
  | op field o v => .one (comparing field o v)
  | whereAnd ps => Connective.and.join ((kept ps).map fun p => .one (comparing p.1 .eq p.2))
  | two p b q => chain p.meaning [(b.connective, q.meaning)]
  | three p b q c r =>
    chain p.meaning [(b.connective, q.meaning), (c.connective, r.meaning)]

/-- No operand is left empty, as `WHERE_AND` may leave it. -/
def Whole : Where → Prop
  | op _ _ _ | whereAnd _ => True
  | two p _ q => (p.Whole ∧ p.text ≠ "") ∧ q.Whole ∧ q.text ≠ ""
  | three p _ q _ r =>
    (p.Whole ∧ p.text ≠ "") ∧ (q.Whole ∧ q.text ≠ "") ∧ r.Whole ∧ r.text ≠ ""

end Where

theorem toList_bops (b : SqlBinaryOp) : (bops b).toList = b.connective.text := by
  cases b <;> rfl

theorem op_ne_empty (field : Name) (o : SqlComparison) (v : Argument) :
    op field.text o v ≠ "" := by
  simp [op, String.append_eq_empty_iff]

theorem conjuncts_op (field : Name) (o : SqlComparison) (v : Argument) :
    Conjuncts (op field.text o v).toList (.one (comparing field o v)) := by
  have hclause := ((writes_print v).clause field o.comparison).meant
  have htext : (op field.text o v).toList =
      '(' :: ((field.text.toList ++ o.comparison.symbol.toList ++ v.print.toList) ++ [')']) := by
    simp [op, sqlComps_eq]
  rw [htext]
  exact .one (Disjuncts.paren (.one (.one hclause)))

theorem whereAnd_eq_empty (ps : List Pair) :
    whereAnd (ps.map Pair.written) = "" ↔ kept ps = [] := by
  rw [whereAnd, whereAnd_eq_addAll, addAll_empty_eq " and "
    (List.forall_mem_map.mpr fun p _ => clause_ne_empty p), List.map_eq_nil_iff]

theorem conjuncts_whereAnd {ps : List Pair} (h : kept ps ≠ []) :
    Conjuncts (whereAnd (ps.map Pair.written)).toList
      (Connective.and.join ((kept ps).map fun p => .one (comparing p.1 .eq p.2))) := by
  refine ⟨(kept ps).map fun p => (p.clause.toList, .one (comparing p.1 .eq p.2)), by simpa using h,
    List.forall_mem_map.mpr fun p _ => ?_, ?_, ?_⟩
  · rw [toList_clause]
    exact ((writes_print p.2).clause p.1 .eq).meant
  · rw [toList_whereAnd, List.map_map]
    rfl
  · rw [List.map_map]
    rfl

theorem conjuncts_two {p q : String} {m m' : Meaning Comparing} (b : SqlBinaryOp)
    (hp : Conjuncts p.toList m) (hq : Conjuncts q.toList m') :
    Conjuncts (opOperands p b q []).toList (chain m [(b.connective, m')]) := by
  have hchain := disjuncts_chain hp [(b.connective, q.toList, m')] (by simpa using hq)
  have htext : (opOperands p b q []).toList = '(' :: ((p.toList ++
      [(b.connective, q.toList, m')].flatMap fun x => x.1.text ++ x.2.1) ++ [')']) := by
    simp [opOperands, toList_bops]
  rw [htext]
  exact .one hchain.paren

theorem conjuncts_three {p q r : String} {m m' m'' : Meaning Comparing} (b c : SqlBinaryOp)
    (hp : Conjuncts p.toList m) (hq : Conjuncts q.toList m') (hr : Conjuncts r.toList m'') :
    Conjuncts (opOperands p b q [(c, r)]).toList
      (chain m [(b.connective, m'), (c.connective, m'')]) := by
  have hchain := disjuncts_chain hp [(b.connective, q.toList, m'), (c.connective, r.toList, m'')]
    (by simpa using ⟨hq, hr⟩)
  have htext : (opOperands p b q [(c, r)]).toList = '(' :: ((p.toList ++
      [(b.connective, q.toList, m'), (c.connective, r.toList, m'')].flatMap fun x =>
        x.1.text ++ x.2.1) ++ [')']) := by
    simp [opOperands, opFlag, toList_bops]
  rw [htext]
  exact .one hchain.paren

namespace Where

theorem conjuncts {w : Where} (h : w.Whole) (hne : w.text ≠ "") :
    Conjuncts w.text.toList w.meaning := by
  induction w with
  | op field o v => exact conjuncts_op field o v
  | whereAnd ps => exact conjuncts_whereAnd fun hnil => hne ((whereAnd_eq_empty ps).mpr hnil)
  | two p b q ihp ihq =>
    obtain ⟨⟨hp, hpne⟩, hq, hqne⟩ := h
    exact conjuncts_two b (ihp hp hpne) (ihq hq hqne)
  | three p b q c r ihp ihq ihr =>
    obtain ⟨⟨hp, hpne⟩, ⟨hq, hqne⟩, hr, hrne⟩ := h
    exact conjuncts_three b c (ihp hp hpne) (ihq hq hqne) (ihr hr hrne)

theorem meaning_of_empty {w : Where} (h : w.text = "") :
    w.meaning = Connective.and.join [] := by
  cases w with
  | op field o v => exact absurd h (op_ne_empty field o v)
  | whereAnd ps =>
    rw [meaning, (whereAnd_eq_empty ps).mp h]
    rfl
  | two p b q => simp [text, opOperands, String.append_eq_empty_iff] at h
  | three p b q c r => simp [text, opOperands, String.append_eq_empty_iff] at h

end Where

/-! ## Orders -/

/-- The order of the records: what `PrepareOrderBy` makes of a list, or a text for one column. -/
inductive Order where
  | prepared (its : List OrderItem)
  | column (name : Name) (descending : Bool)

namespace Order

def text : Order → String
  | prepared its => orderClause "" its
  | column name descending =>
    " ORDER BY " ++ name.text ++ if descending then " DESC " else " ASC "

def items : Order → List (String × Bool)
  | prepared its => its.map fun i => (lower i.name, i.descending)
  | column name descending => [(name.read, descending)]

def names : Order → List String
  | prepared its => its.map (·.name)
  | column name _ => [name.text]

end Order

section Fields

instance (db : DB) (name : String) : Decidable (db.hasField name) :=
  inferInstanceAs (Decidable (∃ c ∈ db.columns, _))

variable {db : DB} {name : String}

theorem isName_of_hasField (h : db.hasField name) : isName name = true := by
  obtain ⟨c, -, hname⟩ := h
  refine isName_of_lower ?_
  have hplain : isName (toLower c.field.name) = true := c.plain
  rwa [← hname] at hplain

theorem mem_columnNames (h : db.hasField name) : lower name ∈ db.columnNames := by
  obtain ⟨c, hc, hname⟩ := h
  refine List.mem_map.mpr ⟨c, hc, ?_⟩
  have hread : c.name.read = lower (toLower c.field.name) := rfl
  rw [hread, ← hname]
  exact lower_lower name

end Fields

theorem feedAll_blank (n : Name) (ds : List Char) :
    feedAll {} ((n.text.toList ++ [' ']) ++ ds) = feedAll ⟨.start, [.word n.read]⟩ ds := by
  rw [List.append_assoc, feedAll_append, feedAll_name]
  rfl

theorem settled_blank (n : Name) : Settled (n.text.toList ++ [' ']) [.word n.read] := by
  have hblank := feedAll_blank n []
  rwa [List.append_nil] at hblank

theorem lexes_direction (n : Name) (descending : Bool) :
    Lexes (n.text.toList ++ (if descending then " DESC" else " ASC").toList)
      [.word n.read, direction descending] := by
  have hlast : Lexes (if descending then "DESC" else "ASC").toList [direction descending] := by
    cases descending <;> exact ⟨_, _, _, rfl, rfl, by decide⟩
  have hlexes := hlast.after _ _ (feedAll_blank n _)
  rw [List.append_assoc] at hlexes
  cases descending <;> exact hlexes

theorem settled_direction (n : Name) (descending : Bool) :
    Settled (n.text.toList ++ (if descending then " DESC " else " ASC ").toList)
      [.word n.read, direction descending] := by
  have hlast : Settled (if descending then "DESC " else "ASC ").toList [direction descending] := by
    cases descending <;> decide
  have hsettled := (settled_blank n).append hlast
  rw [List.append_assoc] at hsettled
  cases descending <;> exact hsettled

namespace Order

theorem arranges {db : DB} {o : Order} (h : ∀ name ∈ o.names, db.hasField name) :
    Arranges o.text.toList o.items := by
  have hopening : Separates " ORDER BY ".toList [.word "order", .word "by"] :=
    ⟨by decide, by decide⟩
  have hcomma : Separates " , ".toList [.symbol ","] := ⟨by decide, by decide⟩
  cases o with
  | prepared its =>
    cases its with
    | nil => exact arranges_nil
    | cons i its =>
      have hclause : ∀ p ∈ (i :: its).map fun j =>
          (j.clause.toList, [Token.word (lower j.name), direction j.descending]),
          Lexes p.1 p.2 := List.forall_mem_map.mpr fun j hj => by
        have hname := isName_of_hasField (h j.name (List.mem_map_of_mem hj))
        simpa [OrderItem.clause, Name.read] using
          lexes_direction ⟨j.name, hname⟩ j.descending
      have hlist := lexes_join hcomma _ hclause (List.cons_ne_nil _ _)
      have hall := hopening.continues_lexes hlist
      have htext : (text (prepared (i :: its))).toList = " ORDER BY ".toList ++
          " , ".toList.intercalate ((i :: its).map fun j => j.clause.toList) := by
        have horder : text (prepared (i :: its)) =
            " ORDER BY " ++ " , ".intercalate ((i :: its).map OrderItem.clause) := rfl
        rw [horder, String.toList_append, String.toList_intercalate, List.map_map]
        rfl
      rw [htext]
      refine arranges_items (List.cons_ne_nil _ _) ?_
      simpa only [items, List.map_map, Function.comp_def, List.cons_append, List.nil_append]
        using hall
  | column name descending =>
    have hall := hopening.continues_lexes (settled_direction name descending).lexes
    have htext : (text (column name descending)).toList = " ORDER BY ".toList ++
        (name.text.toList ++ (if descending then " DESC " else " ASC ").toList) := by
      rw [text, String.toList_append, String.toList_append, List.append_assoc]
    rw [htext]
    exact arranges_items (List.cons_ne_nil _ _) hall

end Order

/-! ## Statements -/

/-- What `Count` sends. -/
def DB.countStatement (db : DB) (condition : String) : String :=
  "SELECT COUNT(*) FROM " ++ db.tableName.text ++ " " ++
    if condition = "" then "" else " where " ++ condition

/-- What `DeleteRecords` sends. -/
def DB.deleteWhere (db : DB) (condition : String) : String :=
  "delete from " ++ db.tableName.text ++ " where " ++ condition

/-- What `GetRecords` sends. -/
def DB.recordsStatement (db : DB) (offset howMany : UInt64) (condition orderBy : String) : String :=
  ORM.selectStatement db.type db.tableName.text (db.columns.map (·.field)) offset howMany condition
    orderBy

section Reading

variable (db : DB) {m : Meaning Comparing} {condition : String}

theorem toList_fields (fields : List Field) : (selectFields fields).toList =
    ", ".toList.intercalate (fields.map fun f => (toLower f.name).toList) := by
  fun_induction selectFields fields with
  | case1 => rfl
  | case2 f => simp
  | case3 f fs hne ih =>
    obtain ⟨g, gs, rfl⟩ := List.exists_cons_of_ne_nil hne
    rw [List.map_cons] at ih
    rw [String.toList_append, String.toList_append, ih, List.map_cons, List.map_cons,
      List.intercalate_cons_cons, List.append_assoc]

theorem selectFields_columns : selectFields (db.columns.map (·.field)) = db.built.selectFields := by
  rw [← String.toList_inj, toList_fields, toList_selectFields, List.map_map]
  rfl

/-- The tokens of a range. -/
def rangeTokens (type : DBType) (offset howMany : UInt64) : List Token :=
  ResultsHandler.ranging type { offset, limit := howMany }

theorem continues_range (type : DBType) (offset howMany : UInt64) :
    Continues (computeRange type offset howMany).toList (rangeTokens type offset howMany) := by
  have hlimit : Separates " LIMIT ".toList [.word "limit"] := ⟨by decide, by decide⟩
  have hcomma : Separates ", ".toList [.symbol ","] := ⟨by decide, by decide⟩
  have hoffset : Separates " OFFSET ".toList [.word "offset"] := ⟨by decide, by decide⟩
  cases type with
  | sqlite =>
    have hrange := hlimit.continues_lexes (((ResultsHandler.lexes_toDecimal offset).separate
      hcomma).append (ResultsHandler.settled_toDecimal howMany)).lexes
    simpa [computeRange, rangeTokens, ResultsHandler.ranging] using hrange
  | pgsql | mysql =>
    have hrange := hlimit.continues_lexes (((ResultsHandler.lexes_toDecimal howMany).separate
      hoffset).append (ResultsHandler.settled_toDecimal offset)).lexes
    simpa [computeRange, rangeTokens, ResultsHandler.ranging] using hrange

theorem parseLimit_range (type : DBType) (offset howMany : UInt64) :
    parseLimit (rangeTokens type offset howMany) = some (some (howMany.toNat, offset.toNat)) := by
  have hnumber (n : UInt64) : numberOf (Word.toDecimal n) = n.toNat := numberOf_repr n.toNat
  cases type <;> simp [rangeTokens, ResultsHandler.ranging, parseLimit, hnumber]

theorem limits_range (type : DBType) (offset howMany : UInt64) :
    Limits (rangeTokens type offset howMany) := by
  intro t ht
  cases type <;> exact (Option.some.inj ht).symm

/-- A condition as it stands in a statement. -/
def clause (condition : String) : String := if condition = "" then "" else " where " ++ condition

theorem readSelection_records (offset howMany : UInt64) {o : Order}
    (hm : Filters (clause condition).toList m) (ho : ∀ name ∈ o.names, db.hasField name) :
    ∃ q, readSelection (db.recordsStatement offset howMany condition o.text) = some q ∧
      q.table = db.tableName.read ∧ q.columns = db.columnNames ∧ saying q.condition = m ∧
      q.order = o.items ∧ q.limit = some (howMany.toNat, offset.toNat) := by
  obtain ⟨toks, f, hsaying, hcondition, hparse⟩ := hm
  obtain ⟨us, horder, harrange⟩ := Order.arranges ho
  have hselect : Settled "select ".toList [.word "select"] := by decide
  have hfrom : Separates " from ".toList [.word "from"] := ⟨by decide, by decide⟩
  have hlexes := continues_range db.type offset howMany _ _ (horder _ _ (hcondition _ _
    ((hselect.append ((lexes_selectFields db).separate hfrom)).lexes_append
      (lexes_name db.tableName))))
  have hdef : db.recordsStatement offset howMany condition o.text =
      "select " ++ selectFields (db.columns.map (·.field)) ++ " from " ++ db.tableName.text ++
        clause condition ++ o.text ++ computeRange db.type offset howMany := rfl
  have htext : (db.recordsStatement offset howMany condition o.text).toList =
      "select ".toList ++ (db.built.selectFields.toList ++ " from ".toList) ++
        db.tableName.text.toList ++ (clause condition).toList ++ o.text.toList ++
        (computeRange db.type offset howMany).toList := by
    simp only [hdef, selectFields_columns, String.toList_append, List.append_assoc]
  obtain ⟨hcloses, hordering⟩ := harrange _ (limits_range db.type offset howMany)
  refine ⟨⟨_, _, f, o.items, some (howMany.toNat, offset.toNat)⟩, ?_, rfl, rfl, hsaying, rfl, rfl⟩
  rw [readSelection, hlexes.lex htext, Option.bind_some]
  simp only [List.append_assoc, List.cons_append, List.nil_append]
  rw [parseSelection, parseMany_columns db _ (by simp)]
  simp only [Option.bind_eq_bind, Option.bind_some]
  rw [hparse _ hcloses, Option.bind_some, hordering, Option.bind_some, parseLimit_range]
  rfl

theorem readCounting_count (hm : Filters (clause condition).toList m) :
    ∃ q, readCounting (db.countStatement condition) = some q ∧ q.table = db.tableName.read ∧
      saying q.condition = m := by
  obtain ⟨toks, f, hsaying, hcondition, hparse⟩ := hm
  have hselect : Settled "SELECT COUNT(*) FROM ".toList
      [.word "select", .word "count", .symbol "(", .symbol "*", .symbol ")", .word "from"] := by
    decide
  have hlexes := hcondition _ _ (hselect.append (settled_blank db.tableName)).lexes
  have hdef : db.countStatement condition =
      "SELECT COUNT(*) FROM " ++ db.tableName.text ++ " " ++ clause condition := rfl
  have hblank : " ".toList = [' '] := rfl
  have htext : (db.countStatement condition).toList =
      "SELECT COUNT(*) FROM ".toList ++ (db.tableName.text.toList ++ [' ']) ++
        (clause condition).toList := by
    simp only [hdef, hblank, String.toList_append, List.append_assoc]
  have hread := hparse [] nofun
  rw [List.append_nil] at hread
  refine ⟨⟨_, f⟩, ?_, rfl, hsaying⟩
  rw [readCounting, hlexes.lex htext, Option.bind_some]
  simp only [List.cons_append, List.nil_append]
  rw [parseCounting, hread]
  rfl

theorem readDeletion_delete (hne : condition ≠ "") (hm : Filters (clause condition).toList m) :
    ∃ q, readDeletion (db.deleteWhere condition) = some q ∧ q.table = db.tableName.read ∧
      saying q.condition = m := by
  obtain ⟨toks, f, hsaying, hcondition, hparse⟩ := hm
  have hdelete : Settled "delete from ".toList [.word "delete", .word "from"] := by decide
  have hlexes := hcondition _ _ (hdelete.lexes_append (lexes_name db.tableName))
  have hdef : db.deleteWhere condition =
      "delete from " ++ db.tableName.text ++ " where " ++ condition := rfl
  have htext : (db.deleteWhere condition).toList =
      "delete from ".toList ++ db.tableName.text.toList ++ (clause condition).toList := by
    simp only [hdef, clause, if_neg hne, String.toList_append, List.append_assoc]
  have hread := hparse [] nofun
  rw [List.append_nil] at hread
  refine ⟨⟨_, f⟩, ?_, rfl, hsaying⟩
  rw [readDeletion, hlexes.lex htext, Option.bind_some]
  simp only [List.cons_append, List.nil_append]
  rw [parseDeletion, hread]
  rfl

end Reading

/-! ## What a condition is about -/

namespace Where

def fields : Where → List Name
  | op field _ _ => [field]
  | whereAnd ps => (kept ps).map (·.1)
  | two p _ q => p.fields ++ q.fields
  | three p _ q _ r => p.fields ++ q.fields ++ r.fields

/-- No operand is left empty, and the fields are those of the table. -/
structure Known (db : DB) (w : Where) : Prop where
  whole : w.Whole
  fields : ∀ n ∈ w.fields, db.hasField n.text

theorem columns_chain {c : String} {m : Meaning Comparing}
    {more : List (Connective × Meaning Comparing)} (h : c ∈ (chain m more).columns) :
    c ∈ m.columns ∨ ∃ p ∈ more, c ∈ p.2.columns := by
  induction more generalizing m with
  | nil => exact .inl h
  | cons p more ih =>
    obtain ⟨b, m'⟩ := p
    have hjoin (b : Connective) (m m' : Meaning Comparing) :
        (b.join [m, m']).columns = m.columns ++ m'.columns := by
      simp [Connective.join, Meaning.columns]
    cases b with
    | and =>
      rw [chain] at h
      rcases ih h with h | ⟨q, hq, h⟩
      · rw [hjoin, List.mem_append] at h
        exact h.imp_right fun h => ⟨_, List.mem_cons_self, h⟩
      · exact .inr ⟨q, List.mem_cons_of_mem _ hq, h⟩
    | or =>
      rw [chain, hjoin, List.mem_append] at h
      refine h.imp_right fun h => ?_
      rcases ih h with h | ⟨q, hq, h⟩
      · exact ⟨_, List.mem_cons_self, h⟩
      · exact ⟨q, List.mem_cons_of_mem _ hq, h⟩

theorem columns_comparing (field : Name) (o : SqlComparison) (v : Argument) :
    (comparing field o v).columns = [field.read] := rfl

theorem columns_meaning {w : Where} {c : String} (h : c ∈ w.meaning.columns) :
    ∃ n ∈ w.fields, n.read = c := by
  induction w with
  | op field o v =>
    rw [meaning, Meaning.columns, Meaning.one, List.flatMap_singleton, columns_comparing,
      List.mem_singleton] at h
    exact ⟨field, List.mem_singleton_self field, h.symm⟩
  | whereAnd ps =>
    obtain ⟨a, ha, hc⟩ := List.mem_flatMap.mp h
    obtain ⟨p, hp, ha⟩ := List.mem_flatMap.mp ha
    obtain ⟨q, hq, rfl⟩ := List.mem_map.mp hp
    obtain rfl := List.mem_singleton.mp ha
    rw [columns_comparing, List.mem_singleton] at hc
    exact ⟨q.1, List.mem_map_of_mem hq, hc.symm⟩
  | two p b q ihp ihq =>
    rcases columns_chain h with h | ⟨x, hx, h⟩
    · obtain ⟨n, hn, hread⟩ := ihp h
      exact ⟨n, List.mem_append_left _ hn, hread⟩
    · obtain rfl := List.mem_singleton.mp hx
      obtain ⟨n, hn, hread⟩ := ihq h
      exact ⟨n, List.mem_append_right _ hn, hread⟩
  | three p b q c' r ihp ihq ihr =>
    rcases columns_chain h with h | ⟨x, hx, h⟩
    · obtain ⟨n, hn, hread⟩ := ihp h
      exact ⟨n, List.mem_append_left _ (List.mem_append_left _ hn), hread⟩
    · rcases List.mem_cons.mp hx with rfl | hx
      · obtain ⟨n, hn, hread⟩ := ihq h
        exact ⟨n, List.mem_append_left _ (List.mem_append_right _ hn), hread⟩
      · obtain rfl := List.mem_singleton.mp hx
        obtain ⟨n, hn, hread⟩ := ihr h
        exact ⟨n, List.mem_append_right _ hn, hread⟩

theorem Known.columns {db : DB} {w : Where} (h : w.Known db) :
    ∀ c ∈ w.meaning.columns, c ∈ db.columnNames := by
  intro c hc
  obtain ⟨n, hn, rfl⟩ := columns_meaning hc
  exact mem_columnNames (h.fields n hn)

theorem filters {w : Where} (h : w.Whole) : Filters (clause w.text).toList w.meaning := by
  by_cases hempty : w.text = ""
  · rw [clause, if_pos hempty, meaning_of_empty hempty]
    exact filters_nil
  · rw [clause, if_neg hempty, String.toList_append]
    exact Disjuncts.filters (Joins.one (conjuncts h hempty))

end Where

theorem Order.columns {db : DB} {o : Order} (h : ∀ name ∈ o.names, db.hasField name) :
    ∀ item ∈ o.items, item.1 ∈ db.columnNames := by
  intro item hitem
  cases o with
  | prepared its =>
    obtain ⟨i, hi, rfl⟩ := List.mem_map.mp hitem
    exact mem_columnNames (h i.name (List.mem_map_of_mem hi))
  | column name descending =>
    obtain rfl := List.mem_singleton.mp hitem
    exact mem_columnNames (h name.text (List.mem_singleton_self _))

end Owls.ORM
