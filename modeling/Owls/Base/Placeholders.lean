import Owls.Base.Lexing

/-!
# Statements with placeholders

`INSERT` and `UPDATE` statements that leave their values to placeholders, how they are read, and
what they do with a list of arguments.
-/

namespace Sql

inductive Placeholder where
  /-- `?`, which takes the argument after those of the placeholders before it. -/
  | next
  /-- `$1` takes the first argument. -/
  | numbered (n : Nat)
deriving DecidableEq

structure Insert where
  table : String
  columns : List String
  values : List Placeholder
deriving DecidableEq

structure Update where
  table : String
  assignments : List (String × Placeholder)
  condition : String × Placeholder
deriving DecidableEq

/-! ## The parser -/

section Lists

variable {α : Type} (item : List Token → Option (α × List Token))

/-- One item or more, with commas between them. -/
def parseMany : Nat → List Token → Option (List α × List Token)
  | 0, _ => none
  | n + 1, ts => do
    let (a, ts) ← item ts
    match ts with
    | .symbol "," :: ts => do
      let (as, ts) ← parseMany n ts
      return (a :: as, ts)
    | ts => return ([a], ts)

end Lists

def parsePlaceholder : List Token → Option (Placeholder × List Token)
  | .symbol "?" :: ts => some (.next, ts)
  | .symbol "$" :: .number n :: ts => some (.numbered (numberOf n), ts)
  | _ => none

def parseName : List Token → Option (String × List Token)
  | .word w :: ts => some (w, ts)
  | _ => none

def parseAssignment : List Token → Option ((String × Placeholder) × List Token)
  | .word w :: .symbol "=" :: ts => (parsePlaceholder ts).map fun r => ((w, r.1), r.2)
  | _ => none

def parseInsert : List Token → Option Insert
  | .word "insert" :: .word "into" :: .word table :: .symbol "(" :: ts => do
    let (columns, ts) ← parseMany parseName ts.length ts
    match ts with
    | .symbol ")" :: .word "values" :: .symbol "(" :: ts => do
      match ← parseMany parsePlaceholder ts.length ts with
      | (values, [.symbol ")"]) => return { table, columns, values }
      | _ => none
    | _ => none
  | _ => none

def parseUpdate : List Token → Option Update
  | .word "update" :: .word table :: .word "set" :: ts => do
    let (assignments, ts) ← parseMany parseAssignment ts.length ts
    match ts with
    | .word "where" :: ts => do
      match ← parseAssignment ts with
      | (condition, []) => return { table, assignments, condition }
      | _ => none
    | _ => none
  | _ => none

def readInsert (s : String) : Option Insert := (lex s).bind parseInsert

def readUpdate (s : String) : Option Update := (lex s).bind parseUpdate

/-! ## Arguments -/

section Arguments

variable {α : Type}

/-- The argument of a placeholder that has so many before it. -/
def Placeholder.argument (args : List α) (before : Nat) : Placeholder → Option α
  | .next => args[before]?
  | .numbered 0 => none
  | .numbered (n + 1) => args[n]?

def arguments (args : List α) : Nat → List Placeholder → Option (List α)
  | _, [] => some []
  | before, p :: ps => do
    return (← p.argument args before) :: (← arguments args (before + 1) ps)

/-- The row that is put in. -/
def Insert.run (s : Insert) (args : List α) : Option (List (String × α)) := do
  let vs ← arguments args 0 s.values
  if s.columns.length = vs.length then return s.columns.zip vs else none

/-- The columns that are set, and the column and the value that a row is to have for it. -/
def Update.run (s : Update) (args : List α) : Option (List (String × α) × (String × α)) := do
  let vs ← arguments args 0 (s.assignments.map (·.2))
  let v ← s.condition.2.argument args s.assignments.length
  return ((s.assignments.map (·.1)).zip vs, (s.condition.1, v))

theorem arguments_in_order (args : List α) (ps : List Placeholder) (before : Nat)
    (h : ∀ i (hi : i < ps.length), ps[i].argument args (before + i) = args[before + i]?)
    (hlength : before + ps.length ≤ args.length) :
    arguments args before ps = some ((args.drop before).take ps.length) := by
  induction ps generalizing before with
  | nil => simp [arguments]
  | cons p ps ih =>
    have hlt : before < args.length := by simp at hlength; omega
    have hfirst := h 0 (by simp)
    have hnext : ∀ i (hi : i < ps.length),
        ps[i].argument args (before + 1 + i) = args[before + 1 + i]? := by
      intro i hi
      have hi' := h (i + 1) (by simpa using hi)
      rw [List.getElem_cons_succ] at hi'
      rw [Nat.add_assoc, Nat.add_comm 1 i]
      exact hi'
    have hrest := ih (before + 1) hnext (by simp at hlength; omega)
    rw [List.getElem_cons_zero, Nat.add_zero, List.getElem?_eq_getElem hlt] at hfirst
    rw [arguments, hfirst, hrest, List.drop_eq_getElem_cons hlt, List.length_cons,
      List.take_succ_cons]
    rfl

end Arguments

/-! ## What the parser makes of a list -/

section Lists

variable {α : Type} (item : List Token → Option (α × List Token)) {n : Nat} {rest : List Token}

theorem parseMany_join (ps : List (List Token × α)) (hne : ps ≠ [])
    (h : ∀ p ∈ ps, ∀ rest, item (p.1 ++ rest) = some (p.2, rest))
    (hrest : rest.head? ≠ some (.symbol ",")) (hn : ps.length ≤ n) :
    parseMany item n (join (.symbol ",") (ps.map (·.1)) ++ rest) = some (ps.map (·.2), rest) := by
  induction ps generalizing n with
  | nil => exact absurd rfl hne
  | cons p ps ih =>
    obtain ⟨m, rfl⟩ : ∃ m, n = m + 1 := ⟨n - 1, by simp at hn; omega⟩
    have hp := h p List.mem_cons_self
    cases ps with
    | nil =>
      rw [List.map_singleton, join, parseMany, hp]
      simp only [Option.bind_eq_bind, Option.bind_some]
      split
      · exact absurd rfl hrest
      · rfl
    | cons q qs =>
      have hmore := ih (n := m) (List.cons_ne_nil _ _)
        (fun r hr => h r (List.mem_cons_of_mem _ hr)) (by simp at hn ⊢; omega)
      have hjoin : join (.symbol ",") ((p :: q :: qs).map (·.1)) ++ rest =
          p.1 ++ (.symbol "," :: (join (.symbol ",") ((q :: qs).map (·.1)) ++ rest)) := by
        simp [join]
      rw [hjoin, parseMany, hp]
      simp only [Option.bind_eq_bind, Option.bind_some, hmore]
      rfl

theorem parseMany_length (ps : List (List Token × α)) (hne : ps ≠ [])
    (h : ∀ p ∈ ps, p.1 ≠ [] ∧ ∀ rest, item (p.1 ++ rest) = some (p.2, rest))
    (hrest : rest.head? ≠ some (.symbol ",")) :
    parseMany item (join (.symbol ",") (ps.map (·.1)) ++ rest).length
        (join (.symbol ",") (ps.map (·.1)) ++ rest) = some (ps.map (·.2), rest) := by
  refine parseMany_join item ps hne (fun p hp => (h p hp).2) hrest ?_
  have hlength := length_le_join (.symbol ",") (ps.map (·.1))
    (List.forall_mem_map.mpr fun p hp => (h p hp).1)
  rw [List.length_map] at hlength
  rw [List.length_append]
  omega

end Lists

end Sql
