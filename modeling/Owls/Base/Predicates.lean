import Owls.Base.Lexing

/-!
# SQL conditions

The comparisons of columns with constants, what `AND`, `OR` and `NOT` make of them, and how the
text of a condition is read.
-/

namespace Sql

/-! ## Conditions -/

inductive Constant where
  | text (s : String)
  | truth (b : Bool)
  | integer (n : Int)
  | decimal (negative : Bool) (whole : Nat) (fraction : String)
deriving DecidableEq

inductive Term where
  | column (name : String)
  | constant (c : Constant)
deriving DecidableEq

structure Comparing where
  left : Term
  op : Comparison
  right : Term
deriving DecidableEq

inductive Formula (α : Type) where
  | atom (a : α)
  | and (a b : Formula α)
  | or (a b : Formula α)
  | not (a : Formula α)
deriving DecidableEq

def conjunction {α : Type} : List α → Option (Formula α)
  | [] => none
  | a :: as =>
    match conjunction as with
    | none => some (.atom a)
    | some f => some (.and (.atom a) f)

/-! ## The parser -/

def parseNumber (negative : Bool) : List Token → Option (Constant × List Token)
  | .number a :: .symbol "." :: .number b :: ts => some (.decimal negative (numberOf a) b, ts)
  | .number a :: ts => some (.integer (if negative then -numberOf a else numberOf a), ts)
  | _ => none

def parseTerm : List Token → Option (Term × List Token)
  | .word w :: ts =>
    if w = "true" then some (.constant (.truth true), ts)
    else if w = "false" then some (.constant (.truth false), ts)
    else if w ∈ reserved then none
    else some (.column w, ts)
  | .name s :: ts => some (.column s, ts)
  | .literal s :: ts => some (.constant (.text s), ts)
  | .symbol "-" :: ts => (parseNumber true ts).map fun r => (.constant r.1, r.2)
  | ts => (parseNumber false ts).map fun r => (.constant r.1, r.2)

def parseComparing (ts : List Token) : Option (Comparing × List Token) := do
  let (left, ts) ← parseTerm ts
  match ts with
  | t :: ts => do
    let op ← parseOp t
    let (right, ts) ← parseTerm ts
    return (⟨left, op, right⟩, ts)
  | [] => none

section Formulas

variable {α : Type} (atom : List Token → Option (α × List Token))

def parseFormula : Nat → Level → List Token → Option (Formula α × List Token)
  | 0, _, _ => none
  | n + 1, .or, ts => do
    let (a, ts) ← parseFormula n .and ts
    match ts with
    | .word "or" :: ts => do
      let (b, ts) ← parseFormula n .or ts
      return (.or a b, ts)
    | ts => return (a, ts)
  | n + 1, .and, ts => do
    let (a, ts) ← parseFormula n .not ts
    match ts with
    | .word "and" :: ts => do
      let (b, ts) ← parseFormula n .and ts
      return (.and a b, ts)
    | ts => return (a, ts)
  | n + 1, .not, .word "not" :: ts => do
    let (a, ts) ← parseFormula n .not ts
    return (.not a, ts)
  | n + 1, .not, .symbol "(" :: ts => do
    match ← parseFormula n .or ts with
    | (a, .symbol ")" :: ts) => return (a, ts)
    | _ => none
  | _ + 1, .not, ts => (atom ts).map fun r => (.atom r.1, r.2)

end Formulas

/-- Three levels for each token are more than a condition can nest. No text is no condition. -/
def parseCondition : List Token → Option (Option (Formula Comparing))
  | [] => some none
  | ts =>
    match parseFormula parseComparing (3 * ts.length + 3) .or ts with
    | some (f, []) => some (some f)
    | _ => none

def readCondition (s : String) : Option (Option (Formula Comparing)) := (lex s).bind parseCondition

/-! ## What the parser makes of a conjunction -/

section Conjunctions

variable {α : Type} {atom : List Token → Option (α × List Token)} {a : α} {n : Nat}
  {ts rest : List Token}

/-- A number goes on past its point. -/
def Stops (rest : List Token) : Prop := rest.head? ≠ some (.symbol ".")

/-- The tokens are those of one comparison. -/
structure Phrase (atom : List Token → Option (α × List Token)) (ts : List Token) (a : α) :
    Prop where
  opens : ∃ t more, ts = t :: more ∧ t ≠ .word "not" ∧ t ≠ .symbol "("
  reads : ∀ rest, Stops rest → atom (ts ++ rest) = some (a, rest)

theorem parseFormula_not (h : Phrase atom ts a) (hrest : Stops rest) :
    parseFormula atom (n + 1) .not (ts ++ rest) = some (.atom a, rest) := by
  obtain ⟨t, more, rfl, hnot, hopen⟩ := h.opens
  have hreads := h.reads rest hrest
  rw [List.cons_append] at hreads ⊢
  rw [parseFormula, hreads]
  · rfl
  · rintro more heq
    cases heq
    exact absurd rfl hnot
  · rintro more heq
    cases heq
    exact absurd rfl hopen

theorem parseFormula_and (tss : List (List Token × α)) {f : Formula α}
    (h : ∀ p ∈ tss, Phrase atom p.1 p.2) (hf : conjunction (tss.map (·.2)) = some f)
    (hrest : Stops rest) (hand : rest.head? ≠ some (.word "and")) (hn : tss.length < n) :
    parseFormula atom n .and (join (.word "and") (tss.map (·.1)) ++ rest) = some (f, rest) := by
  induction tss generalizing n f with
  | nil => cases hf
  | cons p tss ih =>
    obtain ⟨m, rfl⟩ : ∃ m, n = m + 2 := ⟨n - 2, by simp at hn; omega⟩
    have hp := h p List.mem_cons_self
    cases tss with
    | nil =>
      cases hf
      rw [parseFormula, List.map_singleton, join, parseFormula_not hp hrest]
      simp only [Option.bind_eq_bind, Option.bind_some]
      split
      · exact absurd rfl hand
      · rfl
    | cons q tss =>
      obtain ⟨g, hg⟩ : ∃ g, conjunction ((q :: tss).map (·.2)) = some g := by
        rw [List.map_cons, conjunction]
        cases conjunction (tss.map (·.2)) <;> exact ⟨_, rfl⟩
      rw [List.map_cons, conjunction, hg] at hf
      cases hf
      have hmore : parseFormula atom (m + 1) .and
          (join (.word "and") ((q :: tss).map (·.1)) ++ rest) = some (g, rest) :=
        ih (fun r hr => h r (List.mem_cons_of_mem _ hr)) hg (by simp at hn ⊢; omega)
      have hjoin : join (.word "and") ((p :: q :: tss).map (·.1)) ++ rest =
          p.1 ++ (.word "and" :: (join (.word "and") ((q :: tss).map (·.1)) ++ rest)) := by
        simp [join]
      rw [hjoin, parseFormula, parseFormula_not hp (by simp [Stops])]
      simp only [Option.bind_eq_bind, Option.bind_some, hmore]
      rfl

theorem parseFormula_or (tss : List (List Token × α)) (rest : List Token) {f : Formula α}
    (h : ∀ p ∈ tss, Phrase atom p.1 p.2) (hf : conjunction (tss.map (·.2)) = some f)
    (hrest : Stops rest) (hand : rest.head? ≠ some (.word "and"))
    (hor : rest.head? ≠ some (.word "or")) (hn : tss.length < n) :
    parseFormula atom (n + 1) .or (join (.word "and") (tss.map (·.1)) ++ rest) = some (f, rest) := by
  rw [parseFormula, parseFormula_and tss h hf hrest hand hn]
  simp only [Option.bind_eq_bind, Option.bind_some]
  split
  · exact absurd rfl hor
  · rfl

theorem parseFormula_paren {f : Formula α}
    (h : parseFormula atom n .or (ts ++ .symbol ")" :: rest) = some (f, .symbol ")" :: rest)) :
    parseFormula atom (n + 1) .not (.symbol "(" :: (ts ++ .symbol ")" :: rest)) =
      some (f, rest) := by
  rw [parseFormula, h]
  rfl

end Conjunctions

/-! ## The text of a condition -/

section Texts

variable {c : Char} {cs : List Char} {ts toks : List Token} {n : Name}

/-! ### Operators -/

def Comparison.symbol : Comparison → String
  | .eq => "="
  | .ne => "!="
  | .lt => "<"
  | .le => "<="
  | .gt => ">"
  | .ge => ">="

theorem parseOp_symbol (op : Comparison) : parseOp (.symbol op.symbol) = some op := by
  cases op <;> rfl

theorem feed_comparison (d : Char) (h : ¬ (c = '=' ∨ d = '<' ∧ c = '>')) :
    feed ⟨.comparison d, ts⟩ c = feed ⟨.start, ts ++ [.symbol (String.ofList [d])]⟩ c := if_neg h

theorem feedAll_comparing (n : Name) (op : Comparison) (heq : c ≠ '=') (hgt : c ≠ '>')
    (ts : List Token) :
    feedAll ⟨.start, ts⟩ ((n.text.toList ++ op.symbol.toList) ++ c :: cs) =
      feedAll ⟨.start, ts ++ [.word n.read, .symbol op.symbol]⟩ (c :: cs) := by
  rw [feedAll_append, feedAll_append, feedAll_name]
  have htokens : ts ++ [.word n.read, .symbol op.symbol] =
      ts ++ [wordOf n.text.toList] ++ [.symbol op.symbol] := by
    rw [List.append_assoc]
    rfl
  rw [htokens]
  cases op with
  | eq | ne | le | ge => rfl
  | lt =>
    exact congrArg (feedAll · cs) (feed_comparison '<' (by simp [heq, hgt]))
  | gt =>
    exact congrArg (feedAll · cs) (feed_comparison '>' (by simp [heq]))

/-! ### Constants -/

/-- The text stands for the constant. -/
structure Writes (cs : List Char) (k : Constant) : Prop where
  opens : ∃ c more, cs = c :: more ∧ c ≠ '=' ∧ c ≠ '>'
  tokens : ∃ toks, Lexes cs toks ∧
    ∀ rest, Stops rest → parseTerm (toks ++ rest) = some (.constant k, rest)

theorem writes_text (s : String) : Writes ('\'' :: (doubled s.toList ++ ['\''])) (.text s) :=
  ⟨⟨_, _, rfl, by decide, by decide⟩, [literalOf s.toList], lexes_literal _, fun rest _ => by
    simp [literalOf, parseTerm]⟩

theorem writes_truth (b : Bool) : Writes (if b then "true" else "false").toList (.truth b) := by
  cases b with
  | true =>
    have hname : ∀ d ∈ ['r', 'u', 'e'], inName d = true := List.all_eq_true.mp rfl
    exact ⟨⟨_, _, rfl, by decide, by decide⟩, _, lexes_word rfl hname, fun rest _ => rfl⟩
  | false =>
    have hname : ∀ d ∈ ['a', 'l', 's', 'e'], inName d = true := List.all_eq_true.mp rfl
    exact ⟨⟨_, _, rfl, by decide, by decide⟩, _, lexes_word rfl hname, fun rest _ => rfl⟩

theorem digit_opens (hc : c.isDigit = true) : c ≠ '=' ∧ c ≠ '>' := by
  constructor <;> rintro rfl <;> exact absurd hc (by decide)

theorem parseNumber_integer (negative : Bool) (n : Nat) {rest : List Token} (hrest : Stops rest) :
    parseNumber negative (.number n.repr :: rest) =
      some (.integer (if negative then -n else n), rest) := by
  rw [parseNumber]
  · rw [numberOf_repr]
  · rintro b more rfl
    exact hrest rfl

def sign (negative : Bool) : List Char := if negative then ['-'] else []

theorem writes_number {negative : Bool} {k : Constant} (hc : c.isDigit = true)
    (h : Lexes (c :: cs) toks) (hhead : ∃ a more, toks = .number a :: more)
    (hread : ∀ rest, Stops rest → parseNumber negative (toks ++ rest) = some (k, rest)) :
    Writes (sign negative ++ c :: cs) k := by
  cases negative with
  | false =>
    refine ⟨⟨c, cs, rfl, digit_opens hc⟩, toks, h, fun rest hrest => ?_⟩
    obtain ⟨a, more, rfl⟩ := hhead
    have hk := hread rest hrest
    rw [List.cons_append] at hk ⊢
    rw [parseTerm, hk]
    · rfl
    all_goals intros; rename_i heq; cases heq
  | true =>
    refine ⟨⟨'-', c :: cs, rfl, by decide, by decide⟩, _, h.minus hc, fun rest hrest => ?_⟩
    rw [List.cons_append, parseTerm, hread rest hrest]
    rfl

theorem writes_sign_repr (negative : Bool) (n : Nat) :
    Writes (sign negative ++ n.repr.toList) (.integer (if negative then -n else n)) := by
  obtain ⟨c, cs, hrepr, hc⟩ := repr_shape n
  have hlexes := lexes_repr n
  rw [hrepr] at hlexes ⊢
  exact writes_number hc hlexes ⟨_, _, rfl⟩ fun rest hrest => parseNumber_integer negative n hrest

theorem writes_integer (n : Int) : Writes n.repr.toList (.integer n) := by
  cases n with
  | ofNat m => exact writes_sign_repr false m
  | negSucc m =>
    have htext : (Int.negSucc m).repr.toList = sign true ++ (m + 1).repr.toList := by
      simp [Int.repr, sign]
    rw [htext]
    exact writes_sign_repr true (m + 1)

theorem writes_decimal (negative : Bool) (whole : Nat) {fraction : String}
    (hne : fraction.toList ≠ []) (hdigits : ∀ c ∈ fraction.toList, c.isDigit = true) :
    Writes (sign negative ++ (whole.repr.toList ++ '.' :: fraction.toList))
      (.decimal negative whole fraction) := by
  obtain ⟨c, cs, hrepr, hc⟩ := repr_shape whole
  have hfraction := lexes_digits hne hdigits
  rw [String.ofList_toList] at hfraction
  have hpoint : Separates ['.'] [.symbol "."] := ⟨by decide, by decide⟩
  have hlexes := ((lexes_repr whole).separate hpoint).lexes_append hfraction
  have htext : whole.repr.toList ++ '.' :: fraction.toList =
      c :: (cs ++ '.' :: fraction.toList) := by rw [hrepr, List.cons_append]
  rw [List.append_assoc, List.singleton_append, htext] at hlexes
  rw [htext]
  refine writes_number hc hlexes ⟨_, _, rfl⟩ fun rest _ => ?_
  simp [parseNumber, numberOf_repr]

end Texts

/-! ### Clauses -/

section Clauses

variable {cs : List Char} {a : Comparing} {s : String}

/-- The text is one comparison. -/
def Clause (cs : List Char) (a : Comparing) : Prop :=
  ∃ toks, Lexes cs toks ∧ Phrase parseComparing toks a

theorem parseTerm_name (n : Name) (ts : List Token) :
    parseTerm (.word n.read :: ts) = some (.column n.read, ts) := by
  obtain ⟨-, -, -, -, -, hkeywords⟩ := n.shape
  have htrue : n.read ≠ "true" := fun h => hkeywords (by simp [h, keywords])
  have hfalse : n.read ≠ "false" := fun h => hkeywords (by simp [h, keywords])
  have hreserved : n.read ∉ reserved := fun h => hkeywords (List.mem_append_left _ h)
  rw [parseTerm, if_neg htrue, if_neg hfalse, if_neg hreserved]

theorem Writes.clause {k : Constant} (h : Writes cs k) (n : Name) (op : Comparison) :
    Clause (n.text.toList ++ op.symbol.toList ++ cs) ⟨.column n.read, op, .constant k⟩ := by
  obtain ⟨⟨c, more, hcs, heq, hgt⟩, toks, hlexes, hreads⟩ := h
  obtain ⟨-, -, -, -, -, hkeywords⟩ := n.shape
  refine ⟨[.word n.read, .symbol op.symbol] ++ toks, ?_, ⟨_, _, rfl, ?_, by simp⟩, ?_⟩
  · refine hlexes.after _ _ ?_
    rw [hcs]
    exact feedAll_comparing n op heq hgt []
  · intro hnot
    exact hkeywords (by simp [Token.word.inj hnot, keywords, reserved])
  · intro rest hrest
    simp only [List.cons_append, List.nil_append]
    rw [parseComparing, parseTerm_name]
    simp only [Option.bind_eq_bind, Option.bind_some, parseOp_symbol, hreads rest hrest]
    rfl

theorem exists_tokens {ps : List (List Char × Comparing)} (h : ∀ p ∈ ps, Clause p.1 p.2) :
    ∃ qs : List (List Char × List Token × Comparing), qs.map (fun q => (q.1, q.2.2)) = ps ∧
      ∀ q ∈ qs, Lexes q.1 q.2.1 ∧ Phrase parseComparing q.2.1 q.2.2 := by
  induction ps with
  | nil => exact ⟨[], rfl, List.forall_mem_nil _⟩
  | cons p ps ih =>
    rw [List.forall_mem_cons] at h
    obtain ⟨toks, hp⟩ := h.1
    obtain ⟨qs, rfl, hqs⟩ := ih h.2
    exact ⟨(p.1, toks, p.2) :: qs, rfl, List.forall_mem_cons.mpr ⟨hp, hqs⟩⟩

theorem separates_and : Separates " and ".toList [.word "and"] := ⟨by decide, by decide⟩

theorem parseCondition_cons {ts : List Token} {f : Formula Comparing} (hne : ts ≠ [])
    (h : parseFormula parseComparing (3 * ts.length + 3) .or ts = some (f, [])) :
    parseCondition ts = some (some f) := by
  rw [parseCondition, h]
  exact hne

theorem readCondition_conjoin (ps : List (List Char × Comparing)) (h : ∀ p ∈ ps, Clause p.1 p.2)
    (hs : s.toList = " and ".toList.intercalate (ps.map (·.1))) :
    readCondition s = some (conjunction (ps.map (·.2))) := by
  obtain ⟨qs, rfl, hqs⟩ := exists_tokens h
  by_cases hnil : qs = []
  · subst hnil
    obtain rfl : s = "" := String.toList_injective hs
    rfl
  · have htexts : ∀ p ∈ qs.map fun q => (q.1, q.2.1), Lexes p.1 p.2 :=
      List.forall_mem_map.mpr fun q hq => (hqs q hq).1
    have hphrases : ∀ p ∈ qs.map (·.2), Phrase parseComparing p.1 p.2 :=
      List.forall_mem_map.mpr fun q hq => (hqs q hq).2
    have hlexes := lexes_join separates_and _ htexts (by simpa using hnil)
    simp only [List.map_map, Function.comp_def] at hs hlexes
    have hlex : lex s = some (join (.word "and") (qs.map fun q => q.2.1)) := hlexes.lex hs
    have hlength := length_le_join (.word "and") (qs.map fun q => q.2.1)
      (List.forall_mem_map.mpr fun q hq => by
        obtain ⟨t, more, htoks, -⟩ := (hqs q hq).2.opens
        exact htoks ▸ List.cons_ne_nil _ _)
    have hpos := List.length_pos_iff.mpr hnil
    obtain ⟨f, hf⟩ : ∃ f, conjunction ((qs.map (·.2)).map (·.2)) = some f := by
      obtain ⟨q, qs', rfl⟩ := List.exists_cons_of_ne_nil hnil
      rw [List.map_cons, List.map_cons, conjunction]
      cases conjunction ((qs'.map (·.2)).map (·.2)) <;> exact ⟨_, rfl⟩
    have hparse := parseFormula_or (n := 3 * (join (.word "and") (qs.map fun q => q.2.1)).length + 2)
      (qs.map (·.2)) [] hphrases hf (by simp [Stops]) (by simp) (by simp)
      (by simp at hlength ⊢; omega)
    simp only [List.map_map, Function.comp_def, List.append_nil] at hparse hf ⊢
    rw [readCondition, hlex, hf, Option.bind_some]
    exact parseCondition_cons (List.length_pos_iff.mp (by simp at hlength; omega)) hparse

theorem readCondition_paren (h : Clause cs a) (hs : s.toList = '(' :: (cs ++ [')'])) :
    readCondition s = some (some (.atom a)) := by
  obtain ⟨toks, hlexes, hphrase⟩ := h
  have hopen : Settled ['('] [.symbol "("] := by decide
  have hclose : Separates [')'] [.symbol ")"] := ⟨by decide, by decide⟩
  have hlex : lex s = some (.symbol "(" :: (toks ++ [.symbol ")"])) :=
    (hopen.append (hlexes.separate hclose)).lexes.lex hs
  have hatom : ∀ n, parseFormula parseComparing (n + 3) .or (toks ++ [.symbol ")"]) =
      some (.atom a, [.symbol ")"]) := fun n =>
    parseFormula_or [(toks, a)] [.symbol ")"] (by simpa using hphrase) rfl (by simp [Stops])
      (by simp) (by simp) (by simp)
  rw [readCondition, hlex, Option.bind_some]
  refine parseCondition_cons (List.cons_ne_nil _ _) ?_
  rw [show 3 * (Token.symbol "(" :: (toks ++ [.symbol ")"])).length + 3 =
    3 * toks.length + 6 + 3 by simp; omega]
  rw [parseFormula, parseFormula, parseFormula_paren (hatom _)]
  rfl

end Clauses

end Sql
