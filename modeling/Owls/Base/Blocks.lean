import Mathlib.Order.CompletePartialOrder
import Mathlib.Order.Interval.Set.Disjoint

/-!
# Consecutive blocks

`Consecutive a bs b`: the half-open intervals of `bs` stand one after the other from `a` to `b`,
with no gap between them. Such intervals are pairwise disjoint and cover exactly `[a, b)`.
-/

namespace Blocks

variable {α : Type*} [LinearOrder α]

inductive Consecutive : α → List (α × α) → α → Prop where
  | nil (a : α) : Consecutive a [] a
  | cons {a m b : α} {bs : List (α × α)} : a ≤ m → Consecutive m bs b →
      Consecutive a ((a, m) :: bs) b

variable {a b : α} {bs : List (α × α)}

theorem Consecutive.le (h : Consecutive a bs b) : a ≤ b := by
  induction h with
  | nil => exact le_rfl
  | cons hle _ ih => exact hle.trans ih

theorem Consecutive.mem_bounds (h : Consecutive a bs b) {p : α × α} (hp : p ∈ bs) :
    a ≤ p.1 ∧ p.1 ≤ p.2 ∧ p.2 ≤ b := by
  induction h with
  | nil => cases hp
  | cons hle htail ih =>
    rcases List.mem_cons.mp hp with rfl | hp
    · exact ⟨le_rfl, hle, htail.le⟩
    · exact ⟨hle.trans (ih hp).1, (ih hp).2⟩

theorem Consecutive.mem_iff (h : Consecutive a bs b) {x : α} :
    (∃ p ∈ bs, x ∈ Set.Ico p.1 p.2) ↔ x ∈ Set.Ico a b := by
  induction h with
  | nil a => simp
  | cons hle htail ih =>
    simp only [List.mem_cons, exists_eq_or_imp, ih]
    simp only [Set.mem_Ico]
    constructor
    · rintro (⟨h1, h2⟩ | ⟨h1, h2⟩)
      · exact ⟨h1, h2.trans_le htail.le⟩
      · exact ⟨hle.trans h1, h2⟩
    · rintro ⟨h1, h2⟩
      rcases lt_or_ge x _ with hlt | hge
      · exact .inl ⟨h1, hlt⟩
      · exact .inr ⟨hge, h2⟩

end Blocks
