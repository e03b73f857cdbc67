import Mathlib.Data.List.Infix

/-!
# SQL queries

The lexical structure of SQL, the queries of one table, and the rows that a query returns.
Keywords and plain names are the same in either case, and stand in lower case here.
-/

namespace Sql

/-! ## Tokens -/

inductive Token where
  | word (s : String)
  | number (s : String)
  | literal (s : String)
  | name (s : String)
  | symbol (s : String)
deriving DecidableEq

inductive Mode where
  | start
  | word (acc : List Char)
  | number (acc : List Char)
  | literal (acc : List Char)
  /-- A quote ends the literal, or it is the first of a pair. -/
  | closed (acc : List Char)
  /-- White space after a literal. Past a new line, a quote goes on with it. -/
  | gap (acc : List Char) (newline : Bool)
  | name (acc : List Char)
  | nameClosed (acc : List Char)
  | comparison (c : Char)
  | dash
  | lineComment
  | slash
  | comment
  | star
deriving DecidableEq

structure Lexer where
  mode : Mode := .start
  tokens : List Token := []
deriving DecidableEq

def isSpace (c : Char) : Bool := c == ' ' || c == '\t' || c == '\n' || c == '\r'

def wordOf (acc : List Char) : Token := .word (String.ofList (acc.map Char.toLower))

def literalOf (acc : List Char) : Token := .literal (String.ofList acc)

def first (tokens : List Token) (c : Char) : Lexer :=
  if c.isDigit then ⟨.number [c], tokens⟩
  else if c.isAlpha || c == '_' then ⟨.word [c], tokens⟩
  else if isSpace c then ⟨.start, tokens⟩
  else if c = '\'' then ⟨.literal [], tokens⟩
  else if c = '"' then ⟨.name [], tokens⟩
  else if c = '-' then ⟨.dash, tokens⟩
  else if c = '/' then ⟨.slash, tokens⟩
  else if c = '<' ∨ c = '>' ∨ c = '!' then ⟨.comparison c, tokens⟩
  else ⟨.start, tokens ++ [.symbol (String.ofList [c])]⟩

def feed (l : Lexer) (c : Char) : Lexer :=
  match l.mode with
  | .start => first l.tokens c
  | .word acc =>
    if c.isAlphanum || c == '_' then { l with mode := .word (acc ++ [c]) }
    else first (l.tokens ++ [wordOf acc]) c
  | .number acc =>
    if c.isDigit then { l with mode := .number (acc ++ [c]) }
    else first (l.tokens ++ [.number (String.ofList acc)]) c
  | .literal acc =>
    if c = '\'' then { l with mode := .closed acc } else { l with mode := .literal (acc ++ [c]) }
  | .closed acc =>
    if c = '\'' then { l with mode := .literal (acc ++ [c]) }
    else if isSpace c then { l with mode := .gap acc (c == '\n') }
    else first (l.tokens ++ [literalOf acc]) c
  | .gap acc newline =>
    if isSpace c then { l with mode := .gap acc (newline || c == '\n') }
    else if newline && c == '\'' then { l with mode := .literal acc }
    else first (l.tokens ++ [literalOf acc]) c
  | .name acc =>
    if c = '"' then { l with mode := .nameClosed acc } else { l with mode := .name (acc ++ [c]) }
  | .nameClosed acc =>
    if c = '"' then { l with mode := .name (acc ++ [c]) }
    else first (l.tokens ++ [.name (String.ofList acc)]) c
  | .comparison d =>
    if c = '=' ∨ d = '<' ∧ c = '>' then ⟨.start, l.tokens ++ [.symbol (String.ofList [d, c])]⟩
    else first (l.tokens ++ [.symbol (String.ofList [d])]) c
  | .dash =>
    if c = '-' then { l with mode := .lineComment } else first (l.tokens ++ [.symbol "-"]) c
  | .lineComment => if c = '\n' then { l with mode := .start } else l
  | .slash =>
    if c = '*' then { l with mode := .comment } else first (l.tokens ++ [.symbol "/"]) c
  | .comment => if c = '*' then { l with mode := .star } else l
  | .star =>
    if c = '/' then { l with mode := .start }
    else if c = '*' then l
    else { l with mode := .comment }

def feedAll (l : Lexer) (cs : List Char) : Lexer := cs.foldl feed l

/-- `none`: a literal, a name or a comment that does not end. -/
def finish (l : Lexer) : Option (List Token) :=
  match l.mode with
  | .start | .lineComment => some l.tokens
  | .word acc => some (l.tokens ++ [wordOf acc])
  | .number acc => some (l.tokens ++ [.number (String.ofList acc)])
  | .closed acc | .gap acc _ => some (l.tokens ++ [literalOf acc])
  | .nameClosed acc => some (l.tokens ++ [.name (String.ofList acc)])
  | .comparison d => some (l.tokens ++ [.symbol (String.ofList [d])])
  | .dash => some (l.tokens ++ [.symbol "-"])
  | .slash => some (l.tokens ++ [.symbol "/"])
  | .literal _ | .name _ | .comment | .star => none

def lex (s : String) : Option (List Token) := finish (feedAll {} s.toList)

/-! ## What the lexer reads -/

variable {l : Lexer} {c : Char} {acc cs : List Char} {tokens ts : List Token}

theorem feedAll_append (l : Lexer) (cs ds : List Char) :
    feedAll l (cs ++ ds) = feedAll (feedAll l cs) ds := List.foldl_append ..

theorem lex_after {s : String} {pre : List Char} (hs : s.toList = pre ++ cs)
    (h : feedAll {} pre = l) : lex s = finish (feedAll l cs) := by
  rw [lex, hs, feedAll_append, h]

theorem feedAll_literal (h : '\'' ∉ cs) :
    feedAll ⟨.literal acc, tokens⟩ cs = ⟨.literal (acc ++ cs), tokens⟩ := by
  induction cs generalizing acc with
  | nil => rw [List.append_nil, feedAll, List.foldl_nil]
  | cons c cs ih =>
    rw [List.mem_cons, not_or] at h
    have hfeed : feed ⟨.literal acc, tokens⟩ c = ⟨.literal (acc ++ [c]), tokens⟩ :=
      if_neg (Ne.symm h.1)
    rw [feedAll, List.foldl_cons, hfeed, ← feedAll, ih h.2, List.append_assoc,
      List.singleton_append]

theorem feedAll_doubled (acc cs : List Char) :
    feedAll ⟨.literal acc, tokens⟩ (cs.flatMap fun c => if c = '\'' then ['\'', '\''] else [c]) =
      ⟨.literal (acc ++ cs), tokens⟩ := by
  induction cs generalizing acc with
  | nil => rw [List.append_nil]; rfl
  | cons c cs ih =>
    have hone : feedAll ⟨.literal acc, tokens⟩ (if c = '\'' then ['\'', '\''] else [c]) =
        ⟨.literal (acc ++ [c]), tokens⟩ := by
      by_cases hc : c = '\''
      · subst hc
        rfl
      · rw [if_neg hc]
        exact feedAll_literal (by simpa using Ne.symm hc)
    rw [List.flatMap_cons, feedAll_append, hone, ih, List.append_assoc, List.singleton_append]

theorem feedAll_number (h : ∀ c ∈ cs, c.isDigit = true) :
    feedAll ⟨.number acc, tokens⟩ cs = ⟨.number (acc ++ cs), tokens⟩ := by
  induction cs generalizing acc with
  | nil => rw [List.append_nil, feedAll, List.foldl_nil]
  | cons c cs ih =>
    rw [List.forall_mem_cons] at h
    have hfeed : feed ⟨.number acc, tokens⟩ c = ⟨.number (acc ++ [c]), tokens⟩ := if_pos h.1
    rw [feedAll, List.foldl_cons, hfeed, ← feedAll, ih h.2, List.append_assoc,
      List.singleton_append]

theorem feedAll_digits (hne : cs ≠ []) (h : ∀ c ∈ cs, c.isDigit = true) :
    feedAll ⟨.start, tokens⟩ cs = ⟨.number cs, tokens⟩ := by
  cases cs with
  | nil => exact absurd rfl hne
  | cons c cs =>
    rw [List.forall_mem_cons] at h
    have hfeed : feed ⟨.start, tokens⟩ c = ⟨.number [c], tokens⟩ := if_pos h.1
    rw [feedAll, List.foldl_cons, hfeed]
    exact feedAll_number h.2

theorem first_tokens (tokens : List Token) (c : Char) : tokens <+: (first tokens c).tokens := by
  unfold first
  repeat' split
  all_goals first | exact List.prefix_rfl | exact List.prefix_append ..

theorem feed_tokens (l : Lexer) (c : Char) : l.tokens <+: (feed l c).tokens := by
  unfold feed
  split
  all_goals repeat' split
  all_goals first
    | exact List.prefix_rfl
    | exact first_tokens ..
    | exact List.prefix_append ..
    | exact (List.prefix_append ..).trans (first_tokens ..)

theorem feedAll_tokens (l : Lexer) (cs : List Char) : l.tokens <+: (feedAll l cs).tokens := by
  induction cs generalizing l with
  | nil => exact List.prefix_rfl
  | cons c cs ih => exact (feed_tokens l c).trans (ih (feed l c))

theorem finish_tokens (h : finish l = some ts) : l.tokens <+: ts := by
  unfold finish at h
  split at h
  all_goals cases h
  all_goals first | exact List.prefix_rfl | exact List.prefix_append ..

/-- The literal that is being read, and whether a quote has been read past it. -/
def Mode.held : Mode → Option (List Char × Nat)
  | .literal acc => some (acc, 0)
  | .closed acc | .gap acc _ => some (acc, 1)
  | _ => none

theorem held_feed {b : Nat} (h : l.mode.held = some (acc, b)) (c : Char) :
    (∃ acc' b', (feed l c).mode.held = some (acc', b') ∧ (feed l c).tokens = l.tokens ∧
      2 * acc'.count '\'' + b' ≤ 2 * acc.count '\'' + b + [c].count '\'') ∨
    b = 1 ∧ feed l c = first (l.tokens ++ [literalOf acc]) c := by
  obtain ⟨mode, tokens⟩ := l
  cases mode with
  | literal acc₁ =>
    cases h
    by_cases hc : c = '\''
    · subst hc
      exact .inl ⟨acc, 1, rfl, rfl, by simp⟩
    · refine .inl ⟨acc ++ [c], 0, ?_, ?_, ?_⟩
      · simp [feed, hc, Mode.held]
      · simp [feed, hc]
      · simp [List.count_append, hc]
  | closed acc₁ =>
    cases h
    by_cases hc : c = '\''
    · subst hc
      exact .inl ⟨acc ++ ['\''], 0, rfl, rfl, by simp [List.count_append]; omega⟩
    · by_cases hs : isSpace c = true
      · refine .inl ⟨acc, 1, ?_, ?_, by omega⟩
        · simp [feed, hc, hs, Mode.held]
        · simp [feed, hc, hs]
      · exact .inr ⟨rfl, by simp [feed, hc, hs]⟩
  | gap acc₁ newline =>
    cases h
    by_cases hs : isSpace c = true
    · refine .inl ⟨acc, 1, ?_, ?_, by omega⟩
      · simp [feed, hs, Mode.held]
      · simp [feed, hs]
    · by_cases hc : newline = true ∧ c = '\''
      · obtain ⟨rfl, rfl⟩ := hc
        exact .inl ⟨acc, 0, rfl, rfl, by omega⟩
      · refine .inr ⟨rfl, ?_⟩
        have hcond : (newline && c == '\'') = false := by simpa using hc
        simp [feed, hs, hcond]
  | start | word | number | name | nameClosed | comparison | dash | lineComment | slash
    | comment | star => cases h

theorem finish_held {b : Nat} (h : l.mode.held = some (acc, b))
    (hfin : finish (feedAll l cs) = some ts) :
    ∃ v more, ts = l.tokens ++ literalOf v :: more ∧
      2 * v.count '\'' + 1 ≤ 2 * acc.count '\'' + b + cs.count '\'' := by
  induction cs generalizing l acc b with
  | nil =>
    obtain ⟨mode, tokens⟩ := l
    cases mode with
    | literal => cases hfin
    | closed | gap =>
      cases h
      cases hfin
      exact ⟨acc, [], rfl, by simp⟩
    | start | word | number | name | nameClosed | comparison | dash | lineComment | slash
      | comment | star => cases h
  | cons c cs ih =>
    have hcount : (c :: cs).count '\'' = [c].count '\'' + cs.count '\'' := by
      rw [← List.count_append, List.singleton_append]
    rcases held_feed h c with ⟨acc', b', hheld, htokens, hle⟩ | ⟨rfl, hfeed⟩
    · obtain ⟨v, more, rfl, hv⟩ := ih hheld hfin
      exact ⟨v, more, by rw [htokens], by omega⟩
    · have hfirst := first_tokens (l.tokens ++ [literalOf acc]) c
      rw [← hfeed] at hfirst
      obtain ⟨more, rfl⟩ := hfirst.trans ((feedAll_tokens _ cs).trans (finish_tokens hfin))
      exact ⟨acc, more, by simp, by omega⟩

/-! ## Queries -/

inductive Operand where
  | column (name : String)
  | text (s : String)
  | number (n : Nat)
deriving DecidableEq

inductive Comparison where
  | eq | ne | lt | le | gt | ge
deriving DecidableEq

inductive Cond where
  | compare (a : Operand) (op : Comparison) (b : Operand)
  | and (a b : Cond)
  | or (a b : Cond)
  | not (a : Cond)
deriving DecidableEq

structure Query where
  columns : List String
  table : String
  condition : Option Cond := none
  /-- A column, and whether the order is descending. -/
  order : Option (String × Bool) := none
  /-- How many rows, after how many. -/
  limit : Option (Nat × Nat) := none
deriving DecidableEq

def reserved : List String :=
  ["select", "from", "where", "and", "or", "not", "order", "by", "asc", "desc", "limit", "offset"]

def parseOperand : Token → Option Operand
  | .word w => if w ∈ reserved then none else some (.column w)
  | .name s => some (.column s)
  | .literal s => some (.text s)
  | .number s => some (.number (Nat.ofDigitChars 10 s.toList 0))
  | .symbol _ => none

def parseOp : Token → Option Comparison
  | .symbol "=" => some .eq
  | .symbol "<>" => some .ne
  | .symbol "!=" => some .ne
  | .symbol "<" => some .lt
  | .symbol "<=" => some .le
  | .symbol ">" => some .gt
  | .symbol ">=" => some .ge
  | _ => none

def parseComparison : List Token → Option (Cond × List Token)
  | a :: op :: b :: ts => do
    return (.compare (← parseOperand a) (← parseOp op) (← parseOperand b), ts)
  | _ => none

/-- How tightly the operators bind: `OR` the least. -/
inductive Level where
  | or | and | not

def parseCond : Nat → Level → List Token → Option (Cond × List Token)
  | 0, _, _ => none
  | n + 1, .or, ts => do
    let (a, ts) ← parseCond n .and ts
    match ts with
    | .word "or" :: ts => do
      let (b, ts) ← parseCond n .or ts
      return (.or a b, ts)
    | ts => return (a, ts)
  | n + 1, .and, ts => do
    let (a, ts) ← parseCond n .not ts
    match ts with
    | .word "and" :: ts => do
      let (b, ts) ← parseCond n .and ts
      return (.and a b, ts)
    | ts => return (a, ts)
  | n + 1, .not, .word "not" :: ts => do
    let (a, ts) ← parseCond n .not ts
    return (.not a, ts)
  | n + 1, .not, .symbol "(" :: ts => do
    match ← parseCond n .or ts with
    | (a, .symbol ")" :: ts) => return (a, ts)
    | _ => none
  | _ + 1, .not, ts => parseComparison ts

def parseColumns : List Token → Option (List String × List Token)
  | .word c :: .symbol "," :: ts => do
    let (cs, ts) ← parseColumns ts
    return (c :: cs, ts)
  | .word c :: ts => some ([c], ts)
  | _ => none

/-- Three levels for each token are more than a condition can nest. -/
def parseWhere : List Token → Option (Option Cond × List Token)
  | .word "where" :: ts => do
    let (c, ts) ← parseCond (3 * ts.length + 3) .or ts
    return (some c, ts)
  | ts => some (none, ts)

def parseOrder : List Token → Option (Option (String × Bool) × List Token)
  | .word "order" :: .word "by" :: .word c :: .word "desc" :: ts => some (some (c, true), ts)
  | .word "order" :: .word "by" :: .word c :: .word "asc" :: ts => some (some (c, false), ts)
  | .word "order" :: .word "by" :: .word c :: ts => some (some (c, false), ts)
  | .word "order" :: _ => none
  | ts => some (none, ts)

def numberOf (s : String) : Nat := Nat.ofDigitChars 10 s.toList 0

/-- The statement ends here, with a semicolon or without. -/
def parseLimit : List Token → Option (Option (Nat × Nat))
  | [] | [.symbol ";"] => some none
  | [.word "limit", .number n] => some (some (numberOf n, 0))
  | [.word "limit", .number o, .symbol ",", .number n] => some (some (numberOf n, numberOf o))
  | [.word "limit", .number n, .word "offset", .number o] => some (some (numberOf n, numberOf o))
  | _ => none

def parseQuery : List Token → Option Query
  | .word "select" :: ts => do
    let (columns, ts) ← parseColumns ts
    match ts with
    | .word "from" :: .word table :: ts => do
      let (condition, ts) ← parseWhere ts
      let (order, ts) ← parseOrder ts
      let limit ← parseLimit ts
      return { columns, table, condition, order, limit }
    | _ => none
  | _ => none

def parse (s : String) : Option Query := (lex s).bind parseQuery

/-! ## What the parser makes of a comparison -/

variable {column v : String} {n : Nat} {rest : List Token} {cond a b : Cond}

theorem parseCond_not (h : column ∉ reserved) :
    parseCond (n + 1) .not (.word column :: .symbol "=" :: .literal v :: ts) =
      some (.compare (.column column) .eq (.text v), ts) := by
  have hnot : column ≠ "not" := fun hc => h (by simp [reserved, hc])
  unfold parseCond
  split
  all_goals simp_all [parseComparison, parseOperand, parseOp]

theorem parseCond_compare (h : column ∉ reserved) {x y : Operand} {op : Comparison}
    (hparse : parseCond (n + 3) .or (.word column :: .symbol "=" :: .literal v :: ts) =
      some (.compare x op y, rest)) : y = .text v := by
  unfold parseCond at hparse
  obtain ⟨⟨c, ts₁⟩, hand, hparse⟩ := Option.bind_eq_some_iff.mp hparse
  have hc : c = .compare x op y := by
    simp only at hparse
    split at hparse
    · obtain ⟨⟨d, ts₂⟩, -, hparse⟩ := Option.bind_eq_some_iff.mp hparse
      cases hparse
    · cases hparse
      rfl
  unfold parseCond at hand
  rw [parseCond_not h] at hand
  simp only [Option.bind_eq_bind, Option.bind_some] at hand
  split at hand
  · obtain ⟨⟨d, ts₂⟩, -, hand⟩ := Option.bind_eq_some_iff.mp hand
    cases hand
    cases hc
  · cases hand
    cases hc
    rfl

theorem parseCond_literal (h : column ∉ reserved) (hand : ts.head? ≠ some (.word "and"))
    (hor : ts.head? ≠ some (.word "or")) :
    parseCond (n + 3) .or (.word column :: .symbol "=" :: .literal v :: ts) =
      some (.compare (.column column) .eq (.text v), ts) := by
  have handLevel : parseCond (n + 2) .and (.word column :: .symbol "=" :: .literal v :: ts) =
      some (.compare (.column column) .eq (.text v), ts) := by
    unfold parseCond
    rw [parseCond_not h]
    simp only [Option.bind_eq_bind, Option.bind_some]
    split
    · exact absurd rfl hand
    · rfl
  unfold parseCond
  rw [handLevel]
  simp only [Option.bind_eq_bind, Option.bind_some]
  split
  · exact absurd rfl hor
  · rfl

/-! ## Rows -/

inductive Value where
  | text (s : String)
  | number (n : Nat)
deriving DecidableEq

abbrev Columns := String → Option Value

def Operand.value (row : Columns) : Operand → Option Value
  | .column name => row name
  | .text s => some (.text s)
  | .number n => some (.number n)

/-- Values of different types do not compare. -/
def Value.lt : Value → Value → Bool
  | .text a, .text b => decide (a < b)
  | .number a, .number b => decide (a < b)
  | _, _ => false

def Comparison.holds (a b : Value) : Comparison → Bool
  | .eq => a == b
  | .ne => a.lt b || b.lt a
  | .lt => a.lt b
  | .le => a == b || a.lt b
  | .gt => b.lt a
  | .ge => a == b || b.lt a

/-- `none`: there is no such column. -/
def Cond.eval (row : Columns) : Cond → Option Bool
  | .compare a op b => do return op.holds (← a.value row) (← b.value row)
  | .and a b => do return (← a.eval row) && (← b.eval row)
  | .or a b => do return (← a.eval row) || (← b.eval row)
  | .not a => do return !(← a.eval row)

variable {R : Type} (row : R → Columns)

def before (name : String) (desc : Bool) (r s : R) : Bool :=
  match row r name, row s name with
  | some a, some b => if desc then !a.lt b else !b.lt a
  | _, _ => true

/-- The rows that the query returns. -/
def Query.run (q : Query) (table : List R) : List R :=
  let rows := match q.condition with
    | none => table
    | some c => table.filter fun r => c.eval (row r) == some true
  let rows := match q.order with
    | none => rows
    | some (name, desc) => rows.mergeSort (before row name desc)
  match q.limit with
  | none => rows
  | some (howMany, offset) => (rows.drop offset).take howMany

theorem Query.mem_run {q : Query} {table : List R} {r : R} {c : Cond} (h : r ∈ q.run row table)
    (hc : q.condition = some c) : r ∈ table ∧ c.eval (row r) = some true := by
  have hordered {rows : List R} (hr : r ∈ match q.limit with
      | none => rows
      | some (howMany, offset) => (rows.drop offset).take howMany) : r ∈ rows := by
    split at hr
    · exact hr
    · exact List.mem_of_mem_drop (List.mem_of_mem_take hr)
  have hfiltered {rows : List R} (hr : r ∈ match q.order with
      | none => rows
      | some (name, desc) => rows.mergeSort (before row name desc)) : r ∈ rows := by
    split at hr
    · exact hr
    · exact List.mem_mergeSort.mp hr
  have hrow := hfiltered (hordered h)
  rw [hc] at hrow
  simpa using hrow

end Sql
