import Owls.Base.Lexing
import Owls.Columns

/-!
# The query of the results

`RESTAPI_results_handler::DoGet` puts an id of the request path between quotes, and
`GetRecords` sends the statement as it is.
-/

open Sql

namespace Owls

/-! ## Statements -/

namespace ORM

inductive DBType where
  | sqlite
  | pgsql
  | mysql

def toLower (s : String) : String := String.ofList (s.toList.map Char.toLower)

def selectFields : List Field → String
  | [] => ""
  | [f] => toLower f.name
  | f :: fs => toLower f.name ++ ", " ++ selectFields fs

def computeRange (type : DBType) (offset howMany : UInt64) : String :=
  match type with
  | .sqlite => " LIMIT " ++ Word.toDecimal offset ++ ", " ++ Word.toDecimal howMany ++ " "
  | .pgsql | .mysql =>
    " LIMIT " ++ Word.toDecimal howMany ++ " OFFSET " ++ Word.toDecimal offset ++ " "

/-- What `GetRecords` sends. -/
def selectStatement (type : DBType) (tableName : String) (fields : List Field)
    (offset howMany : UInt64) (condition orderBy : String) : String :=
  "select " ++ selectFields fields ++ " from " ++ tableName ++
    (if condition = "" then "" else " where " ++ condition) ++ orderBy ++
    computeRange type offset howMany

def escape (s : String) : String :=
  String.ofList (s.toList.flatMap fun c => if c = '\'' then ['\'', '\''] else [c])

end ORM

/-! ## The handler -/

namespace ResultsHandler

open ORM (DBType)

def resultColumns : List String := simulationResultsDB_Fields.map fun f => ORM.toLower f.name

def valueOf : ORM.Slot → Value
  | ⟨.text, s⟩ => .text s
  | ⟨.number, n⟩ => .number n.toNat

/-- The row of a result, by column. -/
def row (s : SimulationStatus) (name : String) : Option Value :=
  ((resultColumns.zip s.toRecord.values).lookup name).map valueOf

def whereClause (id : String) : String := " simulationId='" ++ id ++ "' "

def statement (type : DBType) (qb : QueryBlock) (condition : String) : String :=
  ORM.selectStatement type "simresults" simulationResultsDB_Fields qb.offset qb.limit condition
    " ORDER BY startTime DESC "

/-- A statement that the database refuses returns no records. -/
def getRecords (type : DBType) (qb : QueryBlock) (condition : String)
    (table : SimulationResultsDB) : List SimulationStatus :=
  ((parse (statement type qb condition)).map (·.run row table)).getD []

def doGet (type : DBType) (qb : QueryBlock) (id : String) (table : SimulationResultsDB) :
    Except Errors.Msg (List SimulationStatus) :=
  if id = "" then .error Errors.missingOrInvalidParameters
  else .ok (getRecords type qb (whereClause id) table)

/-! ## How the statement is read -/

/-- The condition is the comparison of `simulationId` with the id, and nothing else. -/
def Compares (st id : String) : Prop :=
  ∃ q, parse st = some q ∧
    q.condition = some (.compare (.column "simulationid") .eq (.text id))

/-- The tokens before the literal. -/
def opening : List Token :=
  [.word "select", .word "id", .symbol ",", .word "simulationid", .symbol ",", .word "state",
   .symbol ",", .word "tx", .symbol ",", .word "rx", .symbol ",", .word "msgstx", .symbol ",",
   .word "msgsrx", .symbol ",", .word "livedevices", .symbol ",", .word "timetofulldevices",
   .symbol ",", .word "starttime", .symbol ",", .word "endtime", .symbol ",",
   .word "errordevices", .symbol ",", .word "owner", .word "from", .word "simresults",
   .word "where", .word "simulationid", .symbol "="]

def ordering : List Token := [.word "order", .word "by", .word "starttime", .word "desc"]

def ranging (type : DBType) (qb : QueryBlock) : List Token :=
  match type with
  | .sqlite => [.word "limit", .number (Word.toDecimal qb.offset), .symbol ",",
      .number (Word.toDecimal qb.limit)]
  | .pgsql | .mysql => [.word "limit", .number (Word.toDecimal qb.limit), .word "offset",
      .number (Word.toDecimal qb.offset)]

def openingText : String :=
  "select " ++ ORM.selectFields simulationResultsDB_Fields ++ " from " ++ "simresults" ++
    (" where " ++ " simulationId='")

theorem feedAll_opening : feedAll {} openingText.toList = ⟨.literal [], opening⟩ := by
  decide +kernel

variable {type : DBType} {qb : QueryBlock} {id text : String} {v : List Char} {ts : List Token}

theorem toList_statement :
    (statement type qb (whereClause text)).toList =
      openingText.toList ++ (text.toList ++ ("' " ++ " ORDER BY startTime DESC ").toList ++
        (ORM.computeRange type qb.offset qb.limit).toList) := by
  have hne : whereClause text ≠ "" := fun h =>
    absurd (String.append_eq_empty_iff.mp h).2 (by decide)
  have hstatement : statement type qb (whereClause text) =
      "select " ++ ORM.selectFields simulationResultsDB_Fields ++ " from " ++ "simresults" ++
        (if whereClause text = "" then "" else " where " ++ whereClause text) ++
        " ORDER BY startTime DESC " ++ ORM.computeRange type qb.offset qb.limit := rfl
  rw [hstatement, if_neg hne]
  have hclause : whereClause text = " simulationId='" ++ text ++ "' " := rfl
  simp only [hclause, openingText, String.toList_append, List.append_assoc]

theorem feedAll_ordering :
    feedAll ⟨.literal v, ts⟩ ("' " ++ " ORDER BY startTime DESC ").toList =
      ⟨.start, ts ++ literalOf v :: ordering⟩ := by
  -- Only the first letter shows that the literal does not go on after the blanks.
  have hclose (cs : List Char) : feedAll ⟨.literal v, ts⟩ ('\'' :: ' ' :: ' ' :: 'O' :: cs) =
      feedAll ⟨.start, ts ++ [literalOf v]⟩ ('O' :: cs) := rfl
  have horder : Settled "ORDER BY startTime DESC ".toList ordering := by decide
  have htext : ("' " ++ " ORDER BY startTime DESC ").toList =
      '\'' :: ' ' :: ' ' :: "ORDER BY startTime DESC ".toList := by decide
  have hopen : "ORDER BY startTime DESC ".toList = 'O' :: "RDER BY startTime DESC ".toList := by
    decide
  rw [htext, hopen, hclose, ← hopen, feedAll_start, horder, Lexer.behind, List.append_assoc]
  rfl

theorem lexes_toDecimal (n : UInt64) :
    Lexes (Word.toDecimal n).toList [.number (Word.toDecimal n)] := lexes_repr n.toNat

theorem settled_toDecimal (n : UInt64) :
    Settled ((Word.toDecimal n).toList ++ " ".toList) [.number (Word.toDecimal n)] := by
  have hnumber := Word.isNumber_toDecimal n
  simp only [Word.isNumber, Bool.and_eq_true, decide_eq_true_eq, List.all_eq_true] at hnumber
  have hblank (cs : List Char) : feedAll ⟨.number cs, []⟩ " ".toList =
      ⟨.start, [.number (String.ofList cs)]⟩ := rfl
  rw [Settled, feedAll_append, feedAll_digits hnumber.1 hnumber.2, hblank, String.ofList_toList]

theorem no_quote_toDecimal (n : UInt64) : '\'' ∉ (Word.toDecimal n).toList := by
  have hnumber := Word.isNumber_toDecimal n
  simp only [Word.isNumber, Bool.and_eq_true, List.all_eq_true] at hnumber
  exact fun h => absurd (hnumber.2 _ h) (by decide)

theorem no_quote_computeRange (type : DBType) (qb : QueryBlock) :
    '\'' ∉ (ORM.computeRange type qb.offset qb.limit).toList := by
  cases type <;> simp [ORM.computeRange, no_quote_toDecimal]

theorem settled_computeRange (type : DBType) (qb : QueryBlock) :
    Settled (ORM.computeRange type qb.offset qb.limit).toList (ranging type qb) := by
  have hlimit : Settled " LIMIT ".toList [.word "limit"] := by decide
  have hcomma : Separates ", ".toList [.symbol ","] := ⟨by decide, by decide⟩
  have hoffset : Separates " OFFSET ".toList [.word "offset"] := ⟨by decide, by decide⟩
  cases type with
  | sqlite =>
    have hrange := (hlimit.append ((lexes_toDecimal qb.offset).separate hcomma)).append
      (settled_toDecimal qb.limit)
    simp only [List.append_assoc] at hrange
    simp only [ORM.computeRange, String.toList_append, List.append_assoc]
    exact hrange
  | pgsql | mysql =>
    have hrange := (hlimit.append ((lexes_toDecimal qb.limit).separate hoffset)).append
      (settled_toDecimal qb.offset)
    simp only [List.append_assoc] at hrange
    simp only [ORM.computeRange, String.toList_append, List.append_assoc]
    exact hrange

theorem parseQuery_opening (v : String) (more : List Token) :
    parseQuery (opening ++ .literal v :: more) =
      (parseCond (3 * more.length + 9 + 3) .or
        (.word "simulationid" :: .symbol "=" :: .literal v :: more)).bind fun p =>
      (parseOrder p.2).bind fun q =>
      (parseLimit q.2).bind fun limit =>
        some { columns := resultColumns, table := "simresults", condition := some p.1,
               order := q.1, limit } := by
  have hread : parseQuery (opening ++ .literal v :: more) =
      ((parseCond (3 * more.length + 9 + 3) .or
        (.word "simulationid" :: .symbol "=" :: .literal v :: more)).bind fun p =>
          some (some p.1, p.2)).bind fun p =>
      (parseOrder p.2).bind fun q =>
      (parseLimit q.2).bind fun limit =>
        some { columns := resultColumns, table := "simresults", condition := p.1, order := q.1,
               limit } := rfl
  rw [hread, Option.bind_assoc]
  rfl

theorem compares_of_reads (type : DBType) (qb : QueryBlock)
    (h : feedAll ⟨.literal [], opening⟩ text.toList = ⟨.literal v, opening⟩) :
    Compares (statement type qb (whereClause text)) (String.ofList v) := by
  have hlex : lex (statement type qb (whereClause text)) =
      some (opening ++ literalOf v :: (ordering ++ ranging type qb)) := by
    rw [lex_after toList_statement feedAll_opening, feedAll_append, feedAll_append, h,
      feedAll_ordering, feedAll_start, settled_computeRange type qb, ← List.cons_append,
      ← List.append_assoc]
    rfl
  have hcond : parseCond (3 * (ordering ++ ranging type qb).length + 9 + 3) .or
      (.word "simulationid" :: .symbol "=" :: .literal (String.ofList v) ::
        (ordering ++ ranging type qb)) =
      some (.compare (.column "simulationid") .eq (.text (String.ofList v)),
        ordering ++ ranging type qb) :=
    parseCond_literal (by decide) (by simp [ordering]) (by simp [ordering])
  rw [Compares, parse, hlex, Option.bind_some, literalOf, parseQuery_opening, hcond]
  cases type <;> exact ⟨_, rfl, rfl⟩

theorem no_quote_of_compares (h : Compares (statement type qb (whereClause id)) id) :
    '\'' ∉ id.toList := by
  obtain ⟨q, hparse, hcond⟩ := h
  obtain ⟨tokens, hlex, hquery⟩ := Option.bind_eq_some_iff.mp hparse
  rw [lex_after toList_statement feedAll_opening] at hlex
  obtain ⟨v, more, rfl, hcount⟩ := finish_held (l := ⟨.literal [], opening⟩) rfl hlex
  rw [literalOf, parseQuery_opening] at hquery
  obtain ⟨⟨c, ts⟩, hc, hquery⟩ := Option.bind_eq_some_iff.mp hquery
  obtain ⟨⟨order, ts'⟩, -, hquery⟩ := Option.bind_eq_some_iff.mp hquery
  obtain ⟨limit, -, hq⟩ := Option.bind_eq_some_iff.mp hquery
  obtain rfl := Option.some.inj hq
  obtain rfl := Option.some.inj hcond
  have hid : Operand.text id = .text (String.ofList v) := parseCond_compare (by decide) hc
  have hlist : id.toList = v := by
    rw [Operand.text.inj hid, String.toList_ofList]
  have htail := no_quote_computeRange type qb
  have hone : ("' " ++ " ORDER BY startTime DESC ").toList.count '\'' = 1 := by decide
  rw [List.count_append, List.count_append, hone, List.count_eq_zero_of_not_mem htail, hlist]
    at hcount
  rw [hlist]
  refine List.count_eq_zero.mp ?_
  simp only [List.count_nil] at hcount
  omega

theorem escaped_compares (type : DBType) (qb : QueryBlock) (id : String) :
    Compares (statement type qb (whereClause (ORM.escape id))) id := by
  have hread : feedAll ⟨.literal [], opening⟩ (ORM.escape id).toList =
      ⟨.literal id.toList, opening⟩ := by
    rw [ORM.escape, String.toList_ofList]
    exact feedAll_doubled [] id.toList
  have hcompares := compares_of_reads type qb hread
  rwa [String.ofList_toList] at hcompares

theorem compares_iff (type : DBType) (qb : QueryBlock) (id : String) :
    Compares (statement type qb (whereClause id)) id ↔ '\'' ∉ id.toList := by
  constructor
  · exact no_quote_of_compares
  · intro h
    have hcompares := compares_of_reads type qb (feedAll_literal h)
    rwa [List.nil_append, String.ofList_toList] at hcompares

theorem simulationId_of_compares {table : SimulationResultsDB} {s : SimulationStatus}
    {condition : String} (h : Compares (statement type qb condition) id)
    (hs : s ∈ getRecords type qb condition table) : s.simulationId = id := by
  obtain ⟨q, hparse, hcond⟩ := h
  rw [getRecords, hparse, Option.map_some, Option.getD_some] at hs
  have heval := (Query.mem_run row hs hcond).2
  have hcompare : (Value.text s.simulationId == .text id) = true := Option.some.inj heval
  exact Value.text.inj (eq_of_beq hcompare)

/-- The statement is the comparison with the id, and only its results are returned, for exactly
the ids without a quote. -/
theorem results_of_id_iff (type : DBType) (qb : QueryBlock) (id : String) :
    (Compares (statement type qb (whereClause id)) id ∧
      ∀ table results, doGet type qb id table = .ok results →
        ∀ s ∈ results, s.simulationId = id) ↔ '\'' ∉ id.toList := by
  rw [← compares_iff type qb id]
  refine ⟨fun h => h.1, fun h => ⟨h, fun table results hget s hs => ?_⟩⟩
  unfold doGet at hget
  split at hget
  · cases hget
  · cases hget
    exact simulationId_of_compares h hs

/-- What follows the comparison of `x`, when the id goes on with a quote. -/
def alternative : List Token := [.word "or", .literal "a", .symbol "=", .literal "a"]

theorem lex_alternative : lex (statement .sqlite { limit := 100 } (whereClause "x' or 'a'='a")) =
    some (opening ++ .literal "x" ::
      (alternative ++ (ordering ++ ranging .sqlite { limit := 100 }))) := by
  rw [lex_after toList_statement feedAll_opening]
  decide +kernel

/-- The id of another path makes a condition that every record meets. -/
theorem other_results_returned :
    ¬ ∀ (type : DBType) (qb : QueryBlock) (id : String),
      Compares (statement type qb (whereClause id)) id ∧
        ∀ table results, doGet type qb id table = .ok results →
          ∀ s ∈ results, s.simulationId = id := by
  intro h
  have hmem : ({ simulationId := "y" } : SimulationStatus) ∈
      getRecords .sqlite { limit := 100 } (whereClause "x' or 'a'='a") [{ simulationId := "y" }] := by
    rw [getRecords, parse, lex_alternative]
    decide +kernel
  exact absurd ((h .sqlite { limit := 100 } "x' or 'a'='a").2 _ _ rfl _ hmem) (by decide)

end ResultsHandler

end Owls
