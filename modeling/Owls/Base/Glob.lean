import Mathlib.Data.List.Basic

/-!
# Globs

A pattern is a row of pieces: one element, a run of any length, or an element itself.
-/

namespace Glob

inductive Piece (α : Type) where
  | one
  | run
  | lit (a : α)
deriving DecidableEq

variable {α : Type}

inductive Matches : List (Piece α) → List α → Prop where
  | nil : Matches [] []
  | one {p s} (a : α) : Matches p s → Matches (.one :: p) (a :: s)
  | lit {p s} (a : α) : Matches p s → Matches (.lit a :: p) (a :: s)
  | skip {p s} : Matches p s → Matches (.run :: p) s
  | take {p s} (a : α) : Matches (.run :: p) s → Matches (.run :: p) (a :: s)

variable {p : List (Piece α)} {s : List α} {a : α}

theorem matches_nil : Matches ([] : List (Piece α)) s ↔ s = [] := by
  constructor
  · intro h
    cases h
    rfl
  · rintro rfl
    exact .nil

theorem matches_one : Matches (.one :: p) s ↔ ∃ a v, s = a :: v ∧ Matches p v := by
  constructor
  · intro h
    cases h with
    | one a h => exact ⟨a, _, rfl, h⟩
  · rintro ⟨a, v, rfl, h⟩
    exact .one a h

theorem matches_lit : Matches (.lit a :: p) s ↔ ∃ v, s = a :: v ∧ Matches p v := by
  constructor
  · intro h
    cases h with
    | lit a h => exact ⟨_, rfl, h⟩
  · rintro ⟨v, rfl, h⟩
    exact .lit a h

theorem matches_run : Matches (.run :: p) s ↔ ∃ v, v <:+ s ∧ Matches p v := by
  constructor
  · intro h
    induction s with
    | nil =>
      cases h with
      | skip h => exact ⟨[], List.suffix_rfl, h⟩
    | cons a s ih =>
      cases h with
      | skip h => exact ⟨a :: s, List.suffix_rfl, h⟩
      | take _ h =>
        obtain ⟨v, hv, hmatch⟩ := ih h
        exact ⟨v, hv.trans (List.suffix_cons a s), hmatch⟩
  · rintro ⟨v, ⟨u, rfl⟩, h⟩
    induction u with
    | nil => exact .skip h
    | cons a u ih => exact .take a ih

/-! ## Runs next to each other -/

theorem matches_run_run : Matches (.run :: .run :: p) s ↔ Matches (.run :: p) s := by
  constructor
  · intro h
    obtain ⟨v, hv, h⟩ := matches_run.mp h
    obtain ⟨w, hw, h⟩ := matches_run.mp h
    exact matches_run.mpr ⟨w, hw.trans hv, h⟩
  · exact .skip

variable [DecidableEq α]

/-- Of the runs in a row, the last. -/
def squeeze : List (Piece α) → List (Piece α)
  | [] => []
  | x :: p => if x = .run ∧ p.head? = some .run then squeeze p else x :: squeeze p

theorem squeeze_run_run : squeeze (.run :: .run :: p) = squeeze (.run :: p) := if_pos ⟨rfl, rfl⟩

theorem squeeze_cons {x : Piece α} (h : x = .run → p.head? ≠ some .run) :
    squeeze (x :: p) = x :: squeeze p := if_neg fun hboth => h hboth.1 hboth.2

theorem squeeze_eq_nil : squeeze p = [] ↔ p = [] := by
  induction p with
  | nil => rfl
  | cons x p ih =>
    rw [squeeze]
    split
    · rename_i h
      have hne : p ≠ [] := by
        rintro rfl
        cases h.2
      simp [ih, hne]
    · simp

theorem matches_squeeze : Matches (squeeze p) s ↔ Matches p s := by
  induction p generalizing s with
  | nil => rfl
  | cons x p ih =>
    rw [squeeze]
    split
    · rename_i h
      obtain ⟨q, rfl⟩ : ∃ q, p = .run :: q := by
        obtain ⟨q, hq⟩ := List.head?_eq_some_iff.mp h.2
        exact ⟨q, hq⟩
      rw [ih, h.1, matches_run_run]
    · cases x with
      | one => simp only [matches_one, ih]
      | run => simp only [matches_run, ih]
      | lit a => simp only [matches_lit, ih]

theorem head?_squeeze : (squeeze p).head? = p.head? := by
  induction p with
  | nil => rfl
  | cons x p ih =>
    rw [squeeze]
    split
    · rename_i h
      rw [ih, h.2, h.1]
      rfl
    · rfl

theorem squeeze_ne_runs (u v : List (Piece α)) : squeeze p ≠ u ++ .run :: .run :: v := by
  induction p generalizing u with
  | nil => exact (List.append_ne_nil_of_right_ne_nil u (List.cons_ne_nil _ _)).symm
  | cons x p ih =>
    rw [squeeze]
    split
    · exact ih u
    · rename_i h
      intro heq
      cases u with
      | nil =>
        obtain ⟨hx, hrest⟩ := List.cons.inj heq
        have hhead : p.head? = some .run := by
          rw [← head?_squeeze]
          exact congrArg List.head? hrest
        exact h ⟨hx, hhead⟩
      | cons y u => exact ih u (List.cons.inj heq).2

end Glob
