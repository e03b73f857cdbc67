import Owls.Statements

/-!
# Conditions in statements

`GetRecord` with a where clause: the values stand in the statement when `ConvertParams` goes over it.
-/

open Sql

namespace Owls.ORM

/-! ## Question marks in a value -/

section Marks

variable {k : Nat} {cs rest : List Char}

theorem no_quote_repr (k : Nat) : '\'' ∉ k.repr.toList := fun h =>
  absurd (isDigit_repr k _ h) (by decide)

theorem no_mark_repr (k : Nat) : '?' ∉ k.repr.toList := fun h =>
  absurd (isDigit_repr k _ h) (by decide)

theorem no_mark_convertFrom (k : Nat) (cs : List Char) : '?' ∉ convertFrom k cs := by
  induction cs generalizing k with
  | nil => exact List.not_mem_nil
  | cons c cs ih =>
    rw [convertFrom]
    split
    · rw [List.mem_cons, List.mem_append, not_or, not_or]
      exact ⟨by decide, no_mark_repr k, ih (k + 1)⟩
    · rename_i hc
      rw [List.mem_cons, not_or]
      exact ⟨Ne.symm hc, ih k⟩

theorem convertFrom_eq_self_iff : convertFrom k cs = cs ↔ '?' ∉ cs := by
  refine ⟨fun h => h ▸ no_mark_convertFrom k cs, fun h => ?_⟩
  exact converted_self .pgsql h k

theorem doubled_append (xs ys : List Char) : doubled (xs ++ ys) = doubled xs ++ doubled ys :=
  List.flatMap_append

theorem doubled_plain (h : '\'' ∉ cs) : doubled cs = cs := by
  induction cs with
  | nil => rfl
  | cons c cs ih =>
    rw [List.mem_cons, not_or] at h
    have hone : doubled (c :: cs) = [c] ++ doubled cs := by
      rw [doubled, List.flatMap_cons, if_neg (Ne.symm h.1)]
      rfl
    rw [hone, ih h.2]
    rfl

theorem convertFrom_doubled (cs rest : List Char) (k : Nat) :
    convertFrom k (doubled cs ++ rest) =
      doubled (convertFrom k cs) ++ convertFrom (k + cs.count '?') rest := by
  induction cs generalizing k with
  | nil => rfl
  | cons c cs ih =>
    have hcons (xs : List Char) : doubled (c :: xs) = doubled [c] ++ doubled xs :=
      doubled_append [c] xs
    rw [hcons, List.append_assoc]
    by_cases hmark : c = '?'
    · subst hmark
      have hone : doubled ['?'] ++ (doubled cs ++ rest) = '?' :: (doubled cs ++ rest) := rfl
      have hcount : k + ('?' :: cs).count '?' = k + 1 + cs.count '?' := by
        rw [List.count_cons_self]
        omega
      have hvalue : doubled (convertFrom k ('?' :: cs)) =
          '$' :: (k.repr.toList ++ doubled (convertFrom (k + 1) cs)) := by
        have hconvert : convertFrom k ('?' :: cs) =
            ['$'] ++ (k.repr.toList ++ convertFrom (k + 1) cs) := rfl
        rw [hconvert, doubled_append, doubled_append, doubled_plain (no_quote_repr k)]
        rfl
      have hleft : convertFrom k ('?' :: (doubled cs ++ rest)) =
          '$' :: (k.repr.toList ++ convertFrom (k + 1) (doubled cs ++ rest)) := rfl
      rw [hone, hleft, ih, hcount, hvalue, List.cons_append, List.append_assoc]
    · have hplain : '?' ∉ doubled [c] := by
        intro h
        obtain ⟨d, hd, hin⟩ := List.mem_flatMap.mp h
        obtain rfl := List.mem_singleton.mp hd
        split at hin
        · exact absurd hin (by decide)
        · exact hmark (List.mem_singleton.mp hin).symm
      have hconvert : convertFrom k (c :: cs) = c :: convertFrom k cs := by
        rw [convertFrom, if_neg hmark]
      rw [convertFrom_plain hplain, ih, hconvert, List.count_cons_of_ne hmark]
      have hcons' : doubled (c :: convertFrom k cs) = doubled [c] ++ doubled (convertFrom k cs) :=
        doubled_append [c] _
      rw [hcons', List.append_assoc]

end Marks

/-! ## The statement -/

section Statement

variable (db : DB) (field : Name) (v : String)

/-- The statement before the value, up to the quote, and after it. -/
def DB.beforeValue : List Char :=
  "select ".toList ++ (db.built.selectFields.toList ++ " from ".toList) ++
    (db.tableName.text.toList ++ " where ".toList) ++ ['('] ++ (field.text.toList ++ ['='])

theorem beforeValue_eq : db.beforeValue field =
    "select ".toList ++ (db.built.selectFields.toList ++ " from ".toList) ++
      (db.tableName.text.toList ++ " where ".toList) ++ ['('] ++ (field.text.toList ++ ['=']) := rfl

theorem toList_selectWhere : (db.selectWhere (op field.text .eq (.text v))).toList =
    db.beforeValue field ++ '\'' :: (doubled v.toList ++ "') limit 1".toList) := by
  have hprint : (Argument.text v).print.toList = '\'' :: (doubled v.toList ++ ['\'']) :=
    toList_quoted v
  have hdef (clause : String) : db.selectWhere clause = "select " ++ db.built.selectFields ++
      " from " ++ db.tableName.text ++ " where " ++ clause ++ " limit 1" := rfl
  have hop : op field.text .eq (.text v) =
      "(" ++ field.text ++ "=" ++ (Argument.text v).print ++ ")" := rfl
  have hopen : "(".toList = ['('] := rfl
  have hequals : "=".toList = ['='] := rfl
  have hclose : "') limit 1".toList = ['\''] ++ ")".toList ++ " limit 1".toList := rfl
  simp only [hdef, hop, String.toList_append, hprint, hopen, hequals, hclose, beforeValue_eq,
    List.append_assoc, List.cons_append, List.nil_append]

theorem no_mark_beforeValue : '?' ∉ db.beforeValue field := by
  simp only [beforeValue_eq, List.mem_append, not_or]
  exact ⟨⟨⟨⟨by decide, no_mark_selectFields db, by decide⟩, no_mark_name db.tableName, by decide⟩,
    by decide⟩, no_mark_name field, by decide⟩

theorem convertParams_selectWhere :
    convertParams .pgsql (db.selectWhere (op field.text .eq (.text v))) =
      db.selectWhere (op field.text .eq (.text (String.ofList (convertFrom 1 v.toList)))) := by
  have hquote : '?' ∉ db.beforeValue field ++ ['\''] := by
    rw [List.mem_append, not_or]
    exact ⟨no_mark_beforeValue db field, by decide⟩
  have hsplit (cs : List Char) : db.beforeValue field ++ '\'' :: cs =
      (db.beforeValue field ++ ['\'']) ++ cs := List.append_cons ..
  have hrest (k : Nat) : convertFrom k "') limit 1".toList = "') limit 1".toList :=
    convertFrom_eq_self_iff.mpr (by decide)
  have hdoubled := convertFrom_doubled v.toList "') limit 1".toList 1
  rw [hrest] at hdoubled
  have hconverted : converted .pgsql 1 (doubled v.toList ++ "') limit 1".toList) =
      doubled (convertFrom 1 v.toList) ++ "') limit 1".toList := hdoubled
  rw [← String.toList_inj, toList_convertParams, toList_selectWhere, toList_selectWhere, hsplit,
    converted_plain hquote, hconverted, ← hsplit,
    String.toList_ofList (l := convertFrom 1 v.toList)]

/-- The tokens of the statement, the value's in its place. -/
def DB.tokensWith : List Token :=
  [Token.word "select"] ++
    (join (.symbol ",") (db.columns.map fun c => [Token.word c.name.read]) ++ [Token.word "from"]) ++
    ([Token.word db.tableName.read] ++ [Token.word "where"]) ++ [Token.symbol "("] ++
    ([Token.word field.read] ++ [Token.symbol "="]) ++
    ([Token.literal v] ++ [Token.symbol ")", .word "limit", .number "1"])

theorem lex_selectWhere :
    lex (db.selectWhere (op field.text .eq (.text v))) = some (db.tokensWith field v) := by
  have hselect : Settled "select ".toList [.word "select"] := by decide
  have hfrom : Separates " from ".toList [.word "from"] := ⟨by decide, by decide⟩
  have hwhere : Separates " where ".toList [.word "where"] := ⟨by decide, by decide⟩
  have hopen : Settled ['('] [.symbol "("] := by decide
  have hclose : Separates [')'] [.symbol ")"] := ⟨by decide, by decide⟩
  have hlimit : Lexes " limit 1".toList [.word "limit", .number "1"] := by
    exact ⟨.number ['1'], [.word "limit"], [.number "1"], by decide, rfl, rfl⟩
  have hvalue : Lexes ('\'' :: (doubled v.toList ++ "') limit 1".toList))
      ([.literal v] ++ [.symbol ")", .word "limit", .number "1"]) := by
    have hliteral := ((lexes_literal v.toList).separate hclose).lexes_append hlimit
    rw [literalOf, String.ofList_toList] at hliteral
    have hend : "') limit 1".toList = ['\''] ++ ([')'] ++ " limit 1".toList) := rfl
    rw [hend]
    simpa only [List.cons_append, List.append_assoc, List.nil_append] using hliteral
  have hlexes := ((((hselect.append ((lexes_selectFields db).separate hfrom)).append
    ((lexes_name db.tableName).separate hwhere)).append hopen).append
      (settled_assignment field)).lexes_append hvalue
  exact hlexes.lex (toList_selectWhere db field v)

/-- The literals, and the placeholders of either kind. -/
def isValue : Token → Bool
  | .literal _ => true
  | .symbol s => s == "?" || s == "$"
  | _ => false

theorem values_names : (join (.symbol ",") (db.columns.map fun c => [.word c.name.read])).filter
    isValue = [] := by
  refine List.filter_eq_nil_iff.mpr fun t ht => ?_
  rcases mem_join ht with rfl | ⟨ts, hts, hin⟩
  · decide
  · obtain ⟨c, -, rfl⟩ := List.mem_map.mp hts
    obtain rfl := List.mem_singleton.mp hin
    simp [isValue]

theorem values_tokensWith : (db.tokensWith field v).filter isValue = [.literal v] := by
  simp [DB.tokensWith, List.filter_append, List.filter_cons, values_names, isValue]

/-- The statement that is sent has the value as its only literal, and no placeholder. -/
def Kept (statement v : String) : Prop :=
  ∃ toks, lex (convertParams .pgsql statement) = some toks ∧
    toks.filter isValue = [.literal v]

theorem kept_iff :
    Kept (db.selectWhere (op field.text .eq (.text v))) v ↔ '?' ∉ v.toList := by
  have hlex := lex_selectWhere db field (String.ofList (convertFrom 1 v.toList))
  have hvalues := values_tokensWith db field (String.ofList (convertFrom 1 v.toList))
  rw [← convertParams_selectWhere] at hlex
  have hself : String.ofList (convertFrom 1 v.toList) = v ↔ '?' ∉ v.toList := by
    rw [← String.toList_inj, String.toList_ofList]
    exact convertFrom_eq_self_iff
  rw [← hself]
  constructor
  · rintro ⟨toks, htoks, hkept⟩
    obtain rfl := Option.some.inj (hlex.symm.trans htoks)
    have hliteral := hvalues.symm.trans hkept
    simpa using hliteral
  · intro h
    rw [h] at hlex hvalues
    exact ⟨_, hlex, hvalues⟩

/-- A value stays as it is, in a statement without placeholders, where it has no question mark. -/
theorem value_kept_iff (db : DB) (field : Name) (v : String) :
    Kept (db.selectWhere (op field.text .eq (.text v))) v ↔ '?' ∉ v.toList := kept_iff db field v

end Statement

/-! ## A value with a question mark -/

theorem value_renumbered :
    ¬ ∀ (db : DB) (field : Name) (v : String),
      Kept (db.selectWhere (op field.text .eq (.text v))) v := by
  intro h
  have hkept := h (simulationResultsDB .pgsql) ⟨"owner", by decide⟩ "who?"
  exact absurd ((kept_iff _ _ _).mp hkept) (by decide)

end Owls.ORM
