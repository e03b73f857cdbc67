import Owls.Base.Placeholders
import Owls.Conditions

/-!
# The statements of a table

`ORM::DB`: the strings that the constructor puts together from the fields, the statements that
`CreateRecord`, `UpdateRecord` and `GetRecord` make of them, and `ConvertParams`.
-/

open Sql Separators

namespace Owls.ORM

/-! ## The constructor -/

def fieldTypeToChar (type : DBType) (t : FieldType) (size : Nat) : String :=
  match t with
  | .int => "INT"
  | .bigint => "BIGINT"
  | .text => "TEXT"
  | .boolean => "BOOLEAN"
  | .varchar => if size ≠ 0 then "VARCHAR(" ++ size.repr ++ ")" else "TEXT"
  | .blob =>
    match type with
    | .mysql => "LONGBLOB"
    | .pgsql => "BYTEA"
    | .sqlite => "BLOB"
  | .real => "REAL"

/-- What the loop of the constructor has put together. -/
structure Built where
  fieldNames : Std.ExtTreeMap String Nat := ∅
  createFields : String := ""
  selectFields : String := ""
  updateFields : String := ""
  selectList : String := ""
  first : Bool := true
  place : Nat := 0

def addField (type : DBType) (b : Built) (f : Field) : Built :=
  let fieldName := toLower f.name
  let comma := if b.first then "" else ", "
  { fieldNames := b.fieldNames.insert fieldName b.place
    createFields := b.createFields ++ comma ++
      (fieldName ++ " " ++ fieldTypeToChar type f.type f.size ++
        if f.index then " unique primary key" else "")
    selectFields := b.selectFields ++ comma ++ fieldName
    updateFields := b.updateFields ++ comma ++ (fieldName ++ "=?")
    selectList := b.selectList ++ (if b.first then "(" else ", ") ++ "?"
    first := false
    place := b.place + 1 }

def build (type : DBType) (fields : List Field) : Built :=
  let b := fields.foldl (addField type) {}
  { b with selectList := b.selectList ++ ")" }

/-- A field whose name, in lower case, is a plain one. -/
structure Column where
  field : Field
  plain : isName (toLower field.name) = true

def Column.name (c : Column) : Name := ⟨toLower c.field.name, c.plain⟩

structure DB where
  type : DBType
  tableName : Name
  columns : List Column
  nonempty : columns ≠ []

def DB.built (db : DB) : Built := build db.type (db.columns.map (·.field))

def DB.validFieldName (db : DB) (name : String) : Bool :=
  db.built.fieldNames.contains (toLower name)

/-! ## Statements -/

/-- `ConvertParams` from the index on. -/
def convertFrom : Nat → List Char → List Char
  | _, [] => []
  | idx, c :: cs =>
    if c = '?' then '$' :: (idx.repr.toList ++ convertFrom (idx + 1) cs) else c :: convertFrom idx cs

def convertParams (type : DBType) (s : String) : String :=
  match type with
  | .pgsql => String.ofList (convertFrom 1 s.toList)
  | .sqlite | .mysql => s

def DB.insertStatement (db : DB) : String :=
  "insert into  " ++ db.tableName.text ++ " ( " ++ db.built.selectFields ++ " ) values " ++
    db.built.selectList

def DB.updateStatement (db : DB) (fieldName : Name) : String :=
  "update " ++ db.tableName.text ++ " set " ++ db.built.updateFields ++ " where " ++
    fieldName.text ++ "=?"

/-- What `GetRecord` makes of a condition. -/
def DB.selectWhere (db : DB) (whereClause : String) : String :=
  "select " ++ db.built.selectFields ++ " from " ++ db.tableName.text ++ " where " ++ whereClause ++
    " limit 1"

/-- What is sent. -/
def DB.prepare (db : DB) (statement : String) : String := convertParams db.type statement

/-! ## What the loop puts together -/

/-- Each field adds a piece to the string, after a comma if it is not the first. -/
def Accumulates (type : DBType) (string : Built → String) (opening : String)
    (piece : Field → String) : Prop :=
  ∀ b f, string (addField type b f) =
    string b ++ (if b.first then opening else ", ") ++ piece f

section Loops

variable {type : DBType} {string : Built → String} {opening : String} {piece : Field → String}
  {f : Field} {fs : List Field}

theorem Accumulates.more (h : Accumulates type string opening piece) {b : Built}
    (hfirst : b.first = false) (fs : List Field) :
    (string (fs.foldl (addField type) b)).toList =
      (string b).toList ++ fs.flatMap fun f => ", ".toList ++ (piece f).toList := by
  induction fs generalizing b with
  | nil => simp
  | cons f fs ih =>
    rw [List.foldl_cons, ih rfl, h b f, hfirst, List.flatMap_cons]
    simp

theorem Accumulates.foldl (h : Accumulates type string opening piece) (hnil : string {} = "")
    (hne : fs ≠ []) :
    (string (fs.foldl (addField type) {})).toList =
      opening.toList ++ ", ".toList.intercalate (fs.map fun f => (piece f).toList) := by
  cases fs with
  | nil => exact absurd rfl hne
  | cons f fs =>
    rw [List.foldl_cons, h.more rfl, h {} f, hnil, List.map_cons, intercalate_cons,
      List.flatMap_map]
    simp

end Loops

variable (db : DB)

theorem fields_ne_nil : db.columns.map (·.field) ≠ [] := by simpa using db.nonempty

theorem toList_selectFields : db.built.selectFields.toList =
    ", ".toList.intercalate (db.columns.map fun c => c.name.text.toList) := by
  have hloop : Accumulates db.type (·.selectFields) "" fun f => toLower f.name := fun b f => rfl
  have h := hloop.foldl rfl (fields_ne_nil db)
  rw [List.map_map] at h
  exact h

theorem toList_updateFields : db.built.updateFields.toList =
    ", ".toList.intercalate (db.columns.map fun c => (c.name.text ++ "=?").toList) := by
  have hloop : Accumulates db.type (·.updateFields) "" fun f => toLower f.name ++ "=?" :=
    fun b f => rfl
  have h := hloop.foldl rfl (fields_ne_nil db)
  rw [List.map_map] at h
  exact h

theorem toList_selectList : db.built.selectList.toList =
    '(' :: (", ".toList.intercalate (db.columns.map fun _ => ['?']) ++ [')']) := by
  have hloop : Accumulates db.type (·.selectList) "(" fun _ => "?" := fun b f => rfl
  have h := hloop.foldl rfl (fields_ne_nil db)
  rw [List.map_map] at h
  have hbuilt : db.built.selectList =
      ((db.columns.map (·.field)).foldl (addField db.type) {}).selectList ++ ")" := rfl
  rw [hbuilt, String.toList_append, h]
  rfl

/-! ## Placeholders -/

section Placeholders

variable {type : DBType} {k : Nat} {xs : List Char}

/-- The placeholder of a position, as text, as tokens, and as it is read. -/
def mark (type : DBType) (k : Nat) : List Char :=
  match type with
  | .pgsql => '$' :: k.repr.toList
  | .sqlite | .mysql => ['?']

def markTokens (type : DBType) (k : Nat) : List Token :=
  match type with
  | .pgsql => [.symbol "$", .number k.repr]
  | .sqlite | .mysql => [.symbol "?"]

def placeholder (type : DBType) (k : Nat) : Placeholder :=
  match type with
  | .pgsql => .numbered k
  | .sqlite | .mysql => .next

def converted (type : DBType) (k : Nat) (cs : List Char) : List Char :=
  match type with
  | .pgsql => convertFrom k cs
  | .sqlite | .mysql => cs

theorem toList_convertParams (type : DBType) (s : String) :
    (convertParams type s).toList = converted type 1 s.toList := by
  cases type with
  | pgsql => exact String.toList_ofList
  | sqlite | mysql => rfl

theorem convertFrom_plain (h : '?' ∉ xs) (k : Nat) (ys : List Char) :
    convertFrom k (xs ++ ys) = xs ++ convertFrom k ys := by
  induction xs with
  | nil => rfl
  | cons c cs ih =>
    rw [List.mem_cons, not_or] at h
    rw [List.cons_append, convertFrom, if_neg (Ne.symm h.1), ih h.2, List.cons_append]

theorem converted_plain (h : '?' ∉ xs) (k : Nat) (ys : List Char) :
    converted type k (xs ++ ys) = xs ++ converted type k ys := by
  cases type with
  | pgsql => exact convertFrom_plain h k ys
  | sqlite | mysql => rfl

theorem converted_self (type : DBType) (h : '?' ∉ xs) (k : Nat) : converted type k xs = xs := by
  have hnil : converted type k [] = [] := by cases type <;> rfl
  have hplain : converted type k (xs ++ []) = xs ++ converted type k [] := converted_plain h k []
  rwa [List.append_nil, hnil, List.append_nil] at hplain

theorem converted_mark (k : Nat) (ys : List Char) :
    converted type k ('?' :: ys) = mark type k ++ converted type (k + 1) ys := by
  cases type <;> rfl

/-- The pieces of a list, each with its placeholder at the end. -/
def marked (type : DBType) (k : Nat) (pres : List (List Char)) : List (List Char) :=
  (pres.zipIdx k).map fun p => p.1 ++ mark type p.2

theorem converted_pieces (pres : List (List Char)) (h : ∀ p ∈ pres, '?' ∉ p) (hne : pres ≠ [])
    (k : Nat) (rest : List Char) :
    converted type k (", ".toList.intercalate (pres.map (· ++ ['?'])) ++ rest) =
      ", ".toList.intercalate (marked type k pres) ++ converted type (k + pres.length) rest := by
  induction pres generalizing k with
  | nil => exact absurd rfl hne
  | cons p ps ih =>
    rw [List.forall_mem_cons] at h
    cases ps with
    | nil =>
      have htext : ", ".toList.intercalate ([p].map (· ++ ['?'])) ++ rest = p ++ '?' :: rest := by
        simp
      rw [htext, converted_plain h.1, converted_mark]
      simp [marked]
    | cons q qs =>
      have hmore := ih h.2 (List.cons_ne_nil _ _) (k + 1)
      have htext : ", ".toList.intercalate ((p :: q :: qs).map (· ++ ['?'])) ++ rest =
          p ++ '?' :: (", ".toList ++
            (", ".toList.intercalate ((q :: qs).map (· ++ ['?'])) ++ rest)) := by
        simp [List.intercalate_cons_cons]
      have hcount : k + (p :: q :: qs).length = k + 1 + (q :: qs).length := by
        simp only [List.length_cons]
        omega
      rw [htext, converted_plain h.1, converted_mark, converted_plain (by decide), hmore, hcount]
      simp [marked, List.intercalate_cons_cons]

theorem lexes_mark (type : DBType) (k : Nat) : Lexes (mark type k) (markTokens type k) := by
  have hdollar : Settled ['$'] [.symbol "$"] := by decide
  have hask : Settled ['?'] [.symbol "?"] := by decide
  cases type with
  | pgsql => exact hdollar.lexes_append (lexes_repr k)
  | sqlite | mysql => exact hask.lexes

theorem parsePlaceholder_mark (type : DBType) (k : Nat) (rest : List Token) :
    parsePlaceholder (markTokens type k ++ rest) = some (placeholder type k, rest) := by
  cases type with
  | pgsql =>
    have hmark : markTokens .pgsql k ++ rest = .symbol "$" :: .number k.repr :: rest := rfl
    rw [hmark, parsePlaceholder, numberOf_repr]
    rfl
  | sqlite | mysql => rfl

theorem no_mark_name (n : Name) : '?' ∉ n.text.toList := fun h =>
  absurd (n.all_inName _ h) (by decide)

theorem no_mark_intercalate {xss : List (List Char)} (h : ∀ xs ∈ xss, '?' ∉ xs) :
    '?' ∉ ", ".toList.intercalate xss := by
  cases xss with
  | nil => exact List.not_mem_nil
  | cons xs xss =>
    rw [List.forall_mem_cons] at h
    rw [intercalate_cons, List.mem_append, not_or]
    refine ⟨h.1, fun hmem => ?_⟩
    obtain ⟨ys, hys, hin⟩ := List.mem_flatMap.mp hmem
    rcases List.mem_append.mp hin with hsep | hin
    · exact absurd hsep (by decide)
    · exact h.2 ys hys hin

end Placeholders

/-! ## How the statements are read -/

section Reading

variable (type : DBType) (db : DB)

def DB.columnNames (db : DB) : List String := db.columns.map fun c => c.name.read

/-- The placeholders of the positions from one on. -/
def placeholders (type : DBType) (from_ n : Nat) : List Placeholder :=
  (List.range' from_ n).map (placeholder type)

theorem no_mark_selectFields : '?' ∉ db.built.selectFields.toList := by
  rw [toList_selectFields]
  exact no_mark_intercalate (List.forall_mem_map.mpr fun c _ => no_mark_name c.name)

theorem lexes_selectFields : Lexes db.built.selectFields.toList
    (join (.symbol ",") (db.columns.map fun c => [.word c.name.read])) := by
  rw [toList_selectFields]
  have hcomma : Separates ", ".toList [.symbol ","] := ⟨by decide, by decide⟩
  have hpieces : ∀ p ∈ db.columns.map fun c => (c.name.text.toList, [Token.word c.name.read]),
      Lexes p.1 p.2 := by
    intro p hp
    obtain ⟨c, -, rfl⟩ := List.mem_map.mp hp
    dsimp only
    exact lexes_name c.name
  have hne : db.columns.map (fun c => (c.name.text.toList, [Token.word c.name.read])) ≠ [] :=
    List.map_eq_nil_iff.not.mpr db.nonempty
  have hjoin := lexes_join hcomma _ hpieces hne
  simp only [List.map_map, Function.comp_def] at hjoin
  exact hjoin

section Lists

variable {α β : Type} (text : β → List Char) (toks : β → List Token)

theorem lexes_marked (bs : List β) (h : ∀ b ∈ bs, Settled (text b) (toks b)) (hne : bs ≠ [])
    (k : Nat) :
    Lexes (", ".toList.intercalate (marked type k (bs.map text)))
      (join (.symbol ",") ((bs.zipIdx k).map fun p => toks p.1 ++ markTokens type p.2)) := by
  have hcomma : Separates ", ".toList [.symbol ","] := ⟨by decide, by decide⟩
  have hjoin := lexes_join hcomma
    ((bs.zipIdx k).map fun p => (text p.1 ++ mark type p.2, toks p.1 ++ markTokens type p.2))
    (List.forall_mem_map.mpr fun p hp =>
      (h p.1 (List.fst_mem_of_mem_zipIdx hp)).lexes_append (lexes_mark type p.2))
    (by simpa using hne)
  rw [List.map_map, List.map_map] at hjoin
  rw [marked, List.zipIdx_map, List.map_map]
  exact hjoin

theorem markTokens_ne_nil (type : DBType) (k : Nat) : markTokens type k ≠ [] := by
  cases type <;> exact List.cons_ne_nil _ _

theorem parseMany_marked (item : List Token → Option (α × List Token))
    (out : β → Placeholder → α)
    (h : ∀ b k rest, item (toks b ++ (markTokens type k ++ rest)) =
      some (out b (placeholder type k), rest))
    (bs : List β) (hne : bs ≠ []) (k : Nat) (rest : List Token)
    (hrest : rest.head? ≠ some (.symbol ",")) :
    parseMany item
        (join (.symbol ",") ((bs.zipIdx k).map fun p => toks p.1 ++ markTokens type p.2) ++
          rest).length
        (join (.symbol ",") ((bs.zipIdx k).map fun p => toks p.1 ++ markTokens type p.2) ++ rest) =
      some ((bs.zipIdx k).map fun p => out p.1 (placeholder type p.2), rest) := by
  have hmany := parseMany_length item ((bs.zipIdx k).map fun p =>
      (toks p.1 ++ markTokens type p.2, out p.1 (placeholder type p.2))) (by simpa using hne)
    (List.forall_mem_map.mpr fun p _ =>
      ⟨List.append_ne_nil_of_right_ne_nil _ (markTokens_ne_nil type p.2), fun rest => by
        rw [List.append_assoc, h]⟩) hrest
  rwa [List.map_map, List.map_map] at hmany

end Lists

theorem toList_insert : (convertParams type db.insertStatement).toList =
    "insert into  ".toList ++ (db.tableName.text.toList ++ " ( ".toList) ++
      (db.built.selectFields.toList ++ " ) values (".toList) ++
      (", ".toList.intercalate (marked type 1 (db.columns.map fun _ => [])) ++ [')']) := by
  have hplain : '?' ∉ "insert into  ".toList ++ (db.tableName.text.toList ++ " ( ".toList) ++
      (db.built.selectFields.toList ++ " ) values (".toList) := by
    simp only [List.mem_append, not_or]
    exact ⟨⟨by decide, no_mark_name db.tableName, by decide⟩, no_mark_selectFields db, by decide⟩
  have htext : db.insertStatement.toList =
      "insert into  ".toList ++ (db.tableName.text.toList ++ " ( ".toList) ++
        (db.built.selectFields.toList ++ " ) values (".toList) ++
        (", ".toList.intercalate ((db.columns.map fun _ => []).map (· ++ ['?'])) ++ [')']) := by
    have hvalues : " ) values (".toList = " ) values ".toList ++ ['('] := rfl
    have hdef : db.insertStatement = "insert into  " ++ db.tableName.text ++ " ( " ++
        db.built.selectFields ++ " ) values " ++ db.built.selectList := rfl
    simp only [hdef, String.toList_append, toList_selectList, hvalues, List.map_map,
      Function.comp_def, List.nil_append, List.append_assoc, List.cons_append]
  rw [toList_convertParams, htext, converted_plain hplain, converted_pieces _ (by simp)
    (by simpa using db.nonempty), converted_self type (by decide)]

theorem parseMany_columns (rest : List Token) (hrest : rest.head? ≠ some (.symbol ",")) :
    parseMany parseName
        (join (.symbol ",") (db.columns.map fun c => [.word c.name.read]) ++ rest).length
        (join (.symbol ",") (db.columns.map fun c => [.word c.name.read]) ++ rest) =
      some (db.columnNames, rest) := by
  have h := parseMany_length parseName (db.columns.map fun c => ([.word c.name.read], c.name.read))
    (by simpa using db.nonempty)
    (List.forall_mem_map.mpr fun _ _ => ⟨List.cons_ne_nil _ _, fun _ => rfl⟩) hrest
  rwa [List.map_map, List.map_map] at h

theorem readInsert_insert : readInsert (convertParams type db.insertStatement) =
    some ⟨db.tableName.read, db.columnNames, placeholders type 1 db.columns.length⟩ := by
  have hinto : Settled "insert into  ".toList [.word "insert", .word "into"] := by decide
  have hopen : Separates " ( ".toList [.symbol "("] := ⟨by decide, by decide⟩
  have hvalues : Separates " ) values (".toList [.symbol ")", .word "values", .symbol "("] :=
    ⟨by decide, by decide⟩
  have hclose : Separates [')'] [.symbol ")"] := ⟨by decide, by decide⟩
  have hmarked := lexes_marked type (fun _ => []) (fun _ => []) db.columns (fun _ _ => rfl)
    db.nonempty 1
  have hlexes := ((hinto.append ((lexes_name db.tableName).separate hopen)).append
    ((lexes_selectFields db).separate hvalues)).append (hmarked.separate hclose)
  have hlex := hlexes.lexes.lex (toList_insert type db)
  have hplaces := parseMany_marked type (fun _ => []) parsePlaceholder (fun _ p => p)
    (fun _ k rest => parsePlaceholder_mark type k rest) db.columns db.nonempty 1 [.symbol ")"]
    (by simp)
  have hnumbers : ((db.columns.zipIdx 1).map fun p => placeholder type p.2) =
      placeholders type 1 db.columns.length := by
    rw [placeholders, ← List.zipIdx_map_snd 1 db.columns, List.map_map]
    rfl
  simp only [hnumbers, List.nil_append] at hplaces
  rw [readInsert, hlex, Option.bind_some]
  simp only [List.append_assoc, List.cons_append, List.nil_append]
  rw [parseInsert, parseMany_columns db _ (by simp)]
  simp only [Option.bind_eq_bind, Option.bind_some]
  rw [hplaces]
  rfl

def assignmentText (c : Column) : List Char := c.name.text.toList ++ ['=']

def assignmentTokens (c : Column) : List Token := [Token.word c.name.read] ++ [Token.symbol "="]

theorem settled_assignment (n : Name) :
    Settled (n.text.toList ++ ['=']) ([Token.word n.read] ++ [Token.symbol "="]) := by
  have hequals : Separates ['='] [.symbol "="] := ⟨by decide, by decide⟩
  exact (lexes_name n).separate hequals

theorem parseAssignment_mark (n : Name) (k : Nat) (rest : List Token) :
    parseAssignment (([.word n.read] ++ [.symbol "="]) ++ (markTokens type k ++ rest)) =
      some ((n.read, placeholder type k), rest) := by
  have htokens : ([.word n.read] ++ [.symbol "="]) ++ (markTokens type k ++ rest) =
      .word n.read :: .symbol "=" :: (markTokens type k ++ rest) := rfl
  rw [htokens, parseAssignment, parsePlaceholder_mark]
  rfl

theorem toList_updateStatement (fieldName : Name) : (db.updateStatement fieldName).toList =
    "update ".toList ++ (db.tableName.text.toList ++ " set ".toList) ++
      (", ".toList.intercalate ((db.columns.map assignmentText).map (· ++ ['?'])) ++
        (" where ".toList ++ (fieldName.text.toList ++ ['=']) ++ '?' :: [])) := by
  have hmark : "=?".toList = ['='] ++ ['?'] := rfl
  have hupdates : db.built.updateFields.toList =
      ", ".toList.intercalate ((db.columns.map assignmentText).map (· ++ ['?'])) := by
    rw [toList_updateFields, List.map_map]
    refine congrArg _ (List.map_congr_left fun c _ => ?_)
    simp only [assignmentText, Function.comp_apply, String.toList_append, hmark, List.append_assoc]
  have hdef : db.updateStatement fieldName = "update " ++ db.tableName.text ++ " set " ++
      db.built.updateFields ++ " where " ++ fieldName.text ++ "=?" := rfl
  simp only [hdef, String.toList_append, hupdates, hmark, List.append_assoc]

theorem toList_update (fieldName : Name) :
    (convertParams type (db.updateStatement fieldName)).toList =
      "update ".toList ++ (db.tableName.text.toList ++ " set ".toList) ++
        (", ".toList.intercalate (marked type 1 (db.columns.map assignmentText)) ++
          " where ".toList) ++
        (fieldName.text.toList ++ ['=']) ++ mark type (1 + db.columns.length) := by
  have hpre : '?' ∉ "update ".toList ++ (db.tableName.text.toList ++ " set ".toList) := by
    simp only [List.mem_append, not_or]
    exact ⟨by decide, no_mark_name db.tableName, by decide⟩
  have hwhere : '?' ∉ " where ".toList ++ (fieldName.text.toList ++ ['=']) := by
    simp only [List.mem_append, not_or]
    exact ⟨by decide, no_mark_name fieldName, by decide⟩
  have hassignments : ∀ p ∈ db.columns.map assignmentText, '?' ∉ p := by
    refine List.forall_mem_map.mpr fun c _ => ?_
    simp only [assignmentText, List.mem_append, not_or]
    exact ⟨no_mark_name c.name, by decide⟩
  have hnil : converted type (1 + db.columns.length + 1) [] = [] := by cases type <;> rfl
  rw [toList_convertParams, toList_updateStatement, converted_plain hpre,
    converted_pieces _ hassignments (by simpa using db.nonempty), converted_plain hwhere,
    converted_mark, List.length_map, hnil]
  simp only [List.append_assoc, List.append_nil]

theorem readUpdate_update (fieldName : Name) :
    readUpdate (convertParams type (db.updateStatement fieldName)) =
      some ⟨db.tableName.read, db.columnNames.zip (placeholders type 1 db.columns.length),
        (fieldName.read, placeholder type (1 + db.columns.length))⟩ := by
  have hupdate : Settled "update ".toList [.word "update"] := by decide
  have hset : Separates " set ".toList [.word "set"] := ⟨by decide, by decide⟩
  have hwhere : Separates " where ".toList [.word "where"] := ⟨by decide, by decide⟩
  have hmarked := lexes_marked type assignmentText assignmentTokens db.columns
    (fun c _ => settled_assignment c.name) db.nonempty 1
  have hlexes := (((hupdate.append ((lexes_name db.tableName).separate hset)).append
    (hmarked.separate hwhere)).append (settled_assignment fieldName)).lexes_append
      (lexes_mark type (1 + db.columns.length))
  have hlex := hlexes.lex (toList_update type db fieldName)
  have hplaces := parseMany_marked type assignmentTokens parseAssignment (fun c p => (c.name.read, p))
    (fun c k rest => parseAssignment_mark type c.name k rest) db.columns db.nonempty 1
    (.word "where" :: (([.word fieldName.read] ++ [.symbol "="]) ++
      (markTokens type (1 + db.columns.length) ++ []))) (by simp)
  have hzip : ((db.columns.zipIdx 1).map fun p => (p.1.name.read, placeholder type p.2)) =
      db.columnNames.zip (placeholders type 1 db.columns.length) := by
    rw [DB.columnNames, placeholders, List.zip_map, ← List.zipIdx_eq_zip_range']
    rfl
  have hcondition := parseAssignment_mark type fieldName (1 + db.columns.length) []
  rw [hzip] at hplaces
  rw [readUpdate, hlex, Option.bind_some]
  simp only [List.append_assoc, List.cons_append, List.nil_append, List.append_nil]
    at hplaces hcondition ⊢
  rw [parseUpdate, hplaces]
  simp only [Option.bind_eq_bind, Option.bind_some]
  rw [hcondition]
  rfl

/-! ## What the statements do -/

theorem arguments_placeholders {α : Type} (args : List α) (n : Nat) (h : n ≤ args.length) :
    arguments args 0 (placeholders type 1 n) = some (args.take n) := by
  have hlength : (placeholders type 1 n).length = n := by simp [placeholders]
  have horder := arguments_in_order args (placeholders type 1 n) 0 (fun i hi => ?_) (by omega)
  · rwa [hlength, List.drop_zero] at horder
  · have hplace : (placeholders type 1 n)[i] = placeholder type (i + 1) := by
      simp [placeholders, Nat.add_comm]
    rw [hplace, Nat.zero_add]
    cases type <;> rfl

theorem placeholder_argument {α : Type} (args : List α) (k : Nat) :
    (placeholder type (1 + k)).argument args k = args[k]? := by
  rw [Nat.add_comm]
  cases type <;> rfl

theorem placeholders_length (n : Nat) : (placeholders type 1 n).length = n := by
  simp [placeholders]

theorem columnNames_length : db.columnNames.length = db.columns.length := List.length_map ..

theorem run_insert {α : Type} (args : List α) (h : args.length = db.columns.length) :
    (Sql.Insert.mk db.tableName.read db.columnNames (placeholders type 1 db.columns.length)).run args =
      some (db.columnNames.zip args) := by
  rw [Insert.run, arguments_placeholders type args _ h.ge, ← h, List.take_length]
  simp only [Option.bind_eq_bind, Option.bind_some]
  rw [if_pos ((columnNames_length db).trans h.symm)]
  rfl

theorem run_update {α : Type} (args : List α) (v : α) (h : args.length = db.columns.length)
    (fieldName : String) :
    (Sql.Update.mk db.tableName.read (db.columnNames.zip (placeholders type 1 db.columns.length))
        (fieldName, placeholder type (1 + db.columns.length))).run (args ++ [v]) =
      some (db.columnNames.zip args, (fieldName, v)) := by
  have hlength : db.columnNames.length = (placeholders type 1 db.columns.length).length := by
    rw [columnNames_length, placeholders_length]
  have hvalue : (args ++ [v])[db.columns.length]? = some v := by
    rw [← h, List.getElem?_concat_length]
  rw [Update.run, List.map_snd_zip hlength.ge, List.map_fst_zip hlength.le, List.length_zip,
    ← hlength, Nat.min_self, columnNames_length, placeholder_argument, hvalue,
    arguments_placeholders _ _ _ (by simp [h]), List.take_left' h]
  rfl

/-- The names stand in the order of the fields, each with the placeholder of its place, and every
element of the tuple goes to the field of its place. -/
theorem statements_aligned (fieldName : Name) {α : Type} :
    readInsert db.insertStatement =
        some ⟨db.tableName.read, db.columnNames, List.replicate db.columns.length .next⟩ ∧
      readUpdate (db.updateStatement fieldName) =
        some ⟨db.tableName.read, db.columnNames.zip (List.replicate db.columns.length .next),
          (fieldName.read, .next)⟩ ∧
      readInsert (db.prepare db.insertStatement) =
        some ⟨db.tableName.read, db.columnNames, placeholders db.type 1 db.columns.length⟩ ∧
      readUpdate (db.prepare (db.updateStatement fieldName)) =
        some ⟨db.tableName.read, db.columnNames.zip (placeholders db.type 1 db.columns.length),
          (fieldName.read, placeholder db.type (1 + db.columns.length))⟩ ∧
      (∀ tuple : Vector α db.columns.length,
        (readInsert (db.prepare db.insertStatement)).bind (·.run tuple.toList) =
          some (db.columnNames.zip tuple.toList)) ∧
      ∀ (tuple : Vector α db.columns.length) (v : α),
        (readUpdate (db.prepare (db.updateStatement fieldName))).bind
            (·.run (tuple.toList ++ [v])) =
          some (db.columnNames.zip tuple.toList, (fieldName.read, v)) := by
  have hplain : placeholders .sqlite 1 db.columns.length =
      List.replicate db.columns.length .next := by
    refine List.eq_replicate_iff.mpr ⟨placeholders_length .sqlite _, fun p hp => ?_⟩
    obtain ⟨k, -, rfl⟩ := List.mem_map.mp hp
    rfl
  have hinsert := readInsert_insert db.type db
  have hupdate := readUpdate_update db.type db fieldName
  refine ⟨?_, ?_, hinsert, hupdate, fun tuple => ?_, fun tuple v => ?_⟩
  · rw [← hplain]
    exact readInsert_insert .sqlite db
  · rw [← hplain]
    exact readUpdate_update .sqlite db fieldName
  · rw [DB.prepare, hinsert, Option.bind_some]
    exact run_insert db.type db _ tuple.length_toList
  · rw [DB.prepare, hupdate, Option.bind_some]
    exact run_update db.type db _ v tuple.length_toList fieldName.read

end Reading

/-! ## The tables -/

/-- A table whose fields all have plain names. -/
def DB.ofFields (type : DBType) (tableName : Name) (fields : List Field) (hne : fields ≠ [])
    (hplain : ∀ f ∈ fields, isName (toLower f.name) = true) : DB :=
  { type, tableName, columns := fields.pmap Column.mk hplain, nonempty := by simpa using hne }

def simulationDB (type : DBType) : DB :=
  .ofFields type ⟨"simulations", by decide⟩ simulationDB_Fields (by decide) (by decide +kernel)

def simulationResultsDB (type : DBType) : DB :=
  .ofFields type ⟨"simresults", by decide⟩ simulationResultsDB_Fields (by decide) (by decide +kernel)

end Owls.ORM
