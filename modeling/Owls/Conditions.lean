import Owls.Base.Parens
import Owls.Base.Predicates
import Owls.Base.Separators
import Owls.ResultQueries

/-!
# Conditions

`orm.h`: the text of a comparison (`OP`), of a conjunction of fields and values (`WHERE_AND`), and
of operands that `AND` and `OR` put together (the other overloads of `OP`).
-/

open Sql Parens Separators

namespace Owls.ORM

/-! ## Comparisons -/

inductive SqlComparison where
  | eq | neq | lt | lte | gt | gte
deriving DecidableEq

inductive SqlBinaryOp where
  | and | or
deriving DecidableEq

def bops : SqlBinaryOp → String
  | .and => " and "
  | .or => " or "

def sqlComps : SqlComparison → String
  | .eq => "="
  | .neq => "!="
  | .lt => "<"
  | .lte => "<="
  | .gt => ">"
  | .gte => ">="

/-- `std::to_string` of a floating-point number has six digits after the point. -/
def sixDigits (n : Nat) : String :=
  String.ofList ((List.range 6).reverse.map fun i => (n / 10 ^ i % 10).digitChar)

/-- The values that a field is compared with. A `const char *` is the string that it points to, and
a floating-point number, where it is finite, is what `std::to_string` leaves of it. -/
inductive Argument where
  | text (s : String)
  | boolean (b : Bool)
  | integer (n : Int)
  | floating (negative : Bool) (whole millionths : Nat)
deriving DecidableEq

def quoted (s : String) : String := "'" ++ escape s ++ "'"

def Argument.print : Argument → String
  | .text s => quoted s
  | .boolean b => if b then "true" else "false"
  | .integer n => n.repr
  | .floating negative whole millionths =>
    (if negative then "-" else "") ++ whole.repr ++ "." ++ sixDigits millionths

/-- The overloads of `OP` that compare a field with a value. -/
def op (field : String) (o : SqlComparison) (v : Argument) : String :=
  "(" ++ field ++ sqlComps o ++ v.print ++ ")"

/-! ## Conjunctions -/

/-- A pair is added with the text of its value. -/
def appendPair (result field value : String) : String :=
  (if result = "" then result else result ++ " and ") ++ field ++ "=" ++ value

/-- An empty string leaves its field out. -/
def whereAnd_ : String → List (String × Argument) → String
  | result, [] => result
  | result, (field, .text s) :: args =>
    if s = "" then whereAnd_ result args
    else whereAnd_ (appendPair result field (quoted s)) args
  | result, (field, v) :: args => whereAnd_ (appendPair result field v.print) args

def whereAnd (args : List (String × Argument)) : String := whereAnd_ "" args

/-! ## Operands -/

/-- `OP` with a flag: the overload for the last two operands, and the one for more. -/
def opFlag (p : String) (b : SqlBinaryOp) (q : String) : List (SqlBinaryOp × String) → String
  | [] => p ++ bops b ++ q ++ ")"
  | (c, r) :: more => p ++ bops b ++ opFlag q c r more ++ ")"

/-- `OP` of two operands, and of more. -/
def opOperands (p : String) (b : SqlBinaryOp) (q : String) : List (SqlBinaryOp × String) → String
  | [] => "(" ++ p ++ bops b ++ q ++ ")"
  | (c, r) :: more => "(" ++ p ++ bops b ++ opFlag q c r more

/-! ## How the text is read -/

def SqlComparison.comparison : SqlComparison → Comparison
  | .eq => .eq
  | .neq => .ne
  | .lt => .lt
  | .lte => .le
  | .gt => .gt
  | .gte => .ge

def Argument.constant : Argument → Constant
  | .text s => .text s
  | .boolean b => .truth b
  | .integer n => .integer n
  | .floating negative whole millionths => .decimal negative whole (sixDigits millionths)

theorem sqlComps_eq (o : SqlComparison) : sqlComps o = o.comparison.symbol := by
  cases o <;> rfl

theorem toList_sixDigits (n : Nat) :
    (sixDigits n).toList = (List.range 6).reverse.map fun i => (n / 10 ^ i % 10).digitChar :=
  String.toList_ofList

theorem isDigit_sixDigits (n : Nat) : ∀ c ∈ (sixDigits n).toList, c.isDigit = true := by
  intro c hc
  rw [toList_sixDigits] at hc
  obtain ⟨i, -, rfl⟩ := List.mem_map.mp hc
  have hlt : n / 10 ^ i % 10 < 10 := Nat.mod_lt _ (by decide)
  generalize n / 10 ^ i % 10 = d at hlt
  revert d
  decide

theorem toList_quoted (s : String) : (quoted s).toList = '\'' :: (doubled s.toList ++ ['\'']) := by
  simp [quoted, escape, doubled]

theorem writes_print (v : Argument) : Writes v.print.toList v.constant := by
  cases v with
  | text s =>
    rw [Argument.print, toList_quoted]
    exact writes_text s
  | boolean b => exact writes_truth b
  | integer n => exact writes_integer n
  | floating negative whole millionths =>
    have htext : (Argument.floating negative whole millionths).print.toList =
        sign negative ++ (whole.repr.toList ++ '.' :: (sixDigits millionths).toList) := by
      cases negative <;> simp [Argument.print, sign]
    rw [htext]
    exact writes_decimal negative whole (by simp [toList_sixDigits, List.range_succ])
      (isDigit_sixDigits millionths)

/-- What a field and its value are to be read as. -/
def comparing (field : Name) (o : SqlComparison) (v : Argument) : Comparing :=
  ⟨.column field.read, o.comparison, .constant v.constant⟩

theorem readCondition_op (field : Name) (o : SqlComparison) (v : Argument) :
    readCondition (op field.text o v) = some (some (.atom (comparing field o v))) := by
  refine readCondition_paren ((writes_print v).clause field o.comparison) ?_
  simp [op, sqlComps_eq]

/-! ### The pairs of `WHERE_AND` -/

abbrev Pair := Name × Argument

def Pair.written (p : Pair) : String × Argument := (p.1.text, p.2)

def Pair.clause (p : Pair) : String := p.1.text ++ "=" ++ p.2.print

/-- The pairs that are not left out. -/
def kept (ps : List Pair) : List Pair := ps.filter fun p => p.2 ≠ .text ""

theorem clause_ne_empty (p : Pair) : p.clause ≠ "" := by
  simp [Pair.clause, String.append_eq_empty_iff]

theorem toList_clause (p : Pair) : p.clause.toList =
    p.1.text.toList ++ Comparison.eq.symbol.toList ++ p.2.print.toList := by
  simp [Pair.clause, Comparison.symbol]

theorem whereAnd_cons (result : String) (p : Pair) (args : List (String × Argument)) :
    whereAnd_ result (p.written :: args) =
      if p.2 = .text "" then whereAnd_ result args
      else whereAnd_ (appendPair result p.1.text p.2.print) args := by
  obtain ⟨field, v⟩ := p
  cases v with
  | text s =>
    rw [Pair.written, whereAnd_]
    simp only [Argument.text.injEq, Argument.print]
  | boolean | integer | floating => rfl

theorem whereAnd_eq_addAll (result : String) (ps : List Pair) :
    whereAnd_ result (ps.map Pair.written) = addAll " and " result ((kept ps).map Pair.clause) := by
  induction ps generalizing result with
  | nil => rfl
  | cons p ps ih =>
    rw [List.map_cons, whereAnd_cons]
    by_cases hskip : p.2 = .text ""
    · have hkept : kept (p :: ps) = kept ps := by simp [kept, hskip]
      rw [if_pos hskip, hkept, ih]
    · have hkept : kept (p :: ps) = p :: kept ps := by simp [kept, hskip]
      have hadd : appendPair result p.1.text p.2.print = add " and " result p.clause := by
        simp only [appendPair, add, Pair.clause, String.append_assoc]
      rw [if_neg hskip, hkept, hadd, ih]
      rfl

theorem toList_whereAnd (ps : List Pair) :
    (whereAnd (ps.map Pair.written)).toList =
      " and ".toList.intercalate ((kept ps).map fun p => p.clause.toList) := by
  rw [whereAnd, whereAnd_eq_addAll, toList_addAll_empty " and "
    (List.forall_mem_map.mpr fun p _ => clause_ne_empty p), List.map_map]
  rfl

theorem readCondition_whereAnd (ps : List Pair) :
    readCondition (whereAnd (ps.map Pair.written)) =
      some (conjunction ((kept ps).map fun p => comparing p.1 .eq p.2)) := by
  have hread := readCondition_conjoin (s := whereAnd (ps.map Pair.written))
    ((kept ps).map fun p => (p.clause.toList, comparing p.1 .eq p.2)) ?_ ?_
  · simpa only [List.map_map, Function.comp_def] using hread
  · refine List.forall_mem_map.mpr fun p _ => ?_
    rw [toList_clause]
    exact (writes_print p.2).clause p.1 .eq
  · rw [toList_whereAnd, List.map_map]
    rfl

/-- A comparison is read as that of the field with the value, and `WHERE_AND` as the conjunction of
the pairs that have a value, in their order. -/
theorem conditions_read :
    (∀ (field : Name) (o : SqlComparison) (v : String),
      readCondition (op field.text o (.text v)) =
        some (some (.atom ⟨.column field.read, o.comparison, .constant (.text v)⟩))) ∧
      ∀ ps : List Pair, readCondition (whereAnd (ps.map Pair.written)) =
        some (conjunction ((kept ps).map fun p => comparing p.1 .eq p.2)) :=
  ⟨fun field o v => readCondition_op field o (.text v), readCondition_whereAnd⟩

/-! ## Operands and their parentheses -/

section Operands

variable {p q : String} {b : SqlBinaryOp} {more : List (SqlBinaryOp × String)}

/-- The operands with the connectives between them. -/
def pieces (p : String) (b : SqlBinaryOp) (q : String) (more : List (SqlBinaryOp × String)) :
    List (List Char) :=
  p.toList :: (bops b).toList :: q.toList :: more.flatMap fun m => [(bops m.1).toList, m.2.toList]

theorem pieces_cons (c : SqlBinaryOp) (r : String) :
    pieces p b q ((c, r) :: more) = p.toList :: (bops b).toList :: pieces q c r more := rfl

theorem toList_opFlag (p : String) (b : SqlBinaryOp) (q : String)
    (more : List (SqlBinaryOp × String)) :
    (opFlag p b q more).toList =
      (pieces p b q more).flatten ++ List.replicate (more.length + 1) ')' := by
  induction more generalizing p b q with
  | nil => simp [opFlag, pieces]
  | cons m more ih =>
    obtain ⟨c, r⟩ := m
    simp [opFlag, ih, pieces_cons, List.replicate_succ' (n := more.length + 1)]

theorem toList_opOperands :
    (opOperands p b q more).toList =
      '(' :: ((pieces p b q more).flatten ++ List.replicate (max 1 more.length) ')') := by
  cases more with
  | nil => simp [opOperands, pieces]
  | cons m more =>
    obtain ⟨c, r⟩ := m
    have hmax : max 1 ((c, r) :: more).length = more.length + 1 := by simp
    rw [hmax]
    simp [opOperands, toList_opFlag, pieces_cons]

theorem balanced_bops (b : SqlBinaryOp) : Balanced (bops b).toList := by
  cases b <;> decide

theorem balanced_pieces (hp : Balanced p.toList) (hq : Balanced q.toList)
    (hmore : ∀ m ∈ more, Balanced m.2.toList) : Balanced (pieces p b q more).flatten := by
  induction more generalizing p b q with
  | nil => simpa [pieces] using hp.append ((balanced_bops b).append hq)
  | cons m more ih =>
    obtain ⟨c, r⟩ := m
    rw [List.forall_mem_cons] at hmore
    rw [pieces_cons, List.flatten_cons, List.flatten_cons]
    exact hp.append ((balanced_bops b).append (ih hq hmore.1 hmore.2))

theorem inOrder_opOperands (p : String) (b : SqlBinaryOp) (q : String)
    (more : List (SqlBinaryOp × String)) :
    InOrder (pieces p b q more) (opOperands p b q more).toList := by
  rw [toList_opOperands]
  exact (inOrder_flatten _ _).prepend ['(']

/-- The operands stand in their order, and the parentheses are balanced where there are no more
than three. -/
theorem operands_balanced_iff (p : String) (b : SqlBinaryOp) (q : String)
    (more : List (SqlBinaryOp × String)) (hp : Balanced p.toList) (hq : Balanced q.toList)
    (hmore : ∀ m ∈ more, Balanced m.2.toList) :
    Balanced (opOperands p b q more).toList ∧
        InOrder (pieces p b q more) (opOperands p b q more).toList ↔
      more.length + 2 ≤ 3 := by
  have hbalanced := balanced_paren (balanced_pieces (b := b) hp hq hmore) (max 1 more.length)
  rw [← toList_opOperands] at hbalanced
  rw [and_iff_left (inOrder_opOperands p b q more), hbalanced]
  omega

theorem operands_balanced_iff_three :
    Balanced (opOperands "(a=1)" .and "(b=2)" [(.or, "(c=3)")]).toList ∧
        InOrder (pieces "(a=1)" .and "(b=2)" [(.or, "(c=3)")])
          (opOperands "(a=1)" .and "(b=2)" [(.or, "(c=3)")]).toList ↔
      [(SqlBinaryOp.or, "(c=3)")].length + 2 ≤ 3 :=
  operands_balanced_iff _ _ _ _ (by decide) (by decide) (by simpa using by decide)

theorem four_operands_unbalanced :
    ¬ ∀ (p : String) (b : SqlBinaryOp) (q : String) (more : List (SqlBinaryOp × String)),
      Balanced p.toList → Balanced q.toList → (∀ m ∈ more, Balanced m.2.toList) →
        Balanced (opOperands p b q more).toList ∧
          InOrder (pieces p b q more) (opOperands p b q more).toList := by
  intro h
  have hfour := h "(a=1)" .and "(b=2)" [(.and, "(c=3)"), (.and, "(d=4)")] (by decide) (by decide)
    (by simpa using by decide)
  exact absurd hfour.1 (by decide)

end Operands

end Owls.ORM
