import Mathlib.Logic.Function.Basic

/-!
# Two maps that read each other backwards

A table from values to their owners, next to the value that each owner keeps of its own.
-/

variable {α β : Type*}

/-- `m` is the graph of `f`, from the values to the arguments. -/
def Inverse (f : α → Option β) (m : β → Option α) : Prop := ∀ a b, m b = some a ↔ f a = some b

namespace Inverse

variable {f : α → Option β} {m : β → Option α} {a : α} {b : β}

theorem owner (h : Inverse f m) (hf : f a = some b) : m b = some a := (h a b).mpr hf

theorem value (h : Inverse f m) (hm : m b = some a) : f a = some b := (h a b).mp hm

variable [DecidableEq α] [DecidableEq β]

theorem set {x : Option β} {y : Option α} (h : Inverse f m) (hf : ∀ b', f a = some b' → b' = b)
    (hm : ∀ a', m b = some a' → a' = a) (hx : ∀ b', x = some b' → b' = b)
    (hy : ∀ a', y = some a' → a' = a) (hxy : y = some a ↔ x = some b) :
    Inverse (Function.update f a x) (Function.update m b y) := by
  intro a' b'
  by_cases ha : a' = a <;> by_cases hb : b' = b
  · rw [ha, hb, Function.update_self, Function.update_self]
    exact hxy
  · rw [ha, Function.update_self, Function.update_of_ne hb]
    exact iff_of_false (fun hold => hb (hf b' (h.value hold))) fun hnew => hb (hx b' hnew)
  · rw [hb, Function.update_self, Function.update_of_ne ha]
    exact iff_of_false (fun hnew => ha (hy a' hnew)) fun hold => ha (hm a' (h.owner hold))
  · rw [Function.update_of_ne ha, Function.update_of_ne hb]
    exact h a' b'

theorem enter (h : Inverse f m) (hf : f a = none) (hm : m b = none) :
    Inverse (Function.update f a (some b)) (Function.update m b (some a)) := by
  refine h.set (by simp [hf]) (by simp [hm]) (fun _ hb => ?_) (fun _ ha => ?_) (by simp)
  · exact (Option.some.inj hb).symm
  · exact (Option.some.inj ha).symm

theorem erase (h : Inverse f m) (hf : f a = some b) :
    Inverse (Function.update f a none) (Function.update m b none) := by
  refine h.set (fun _ hb => ?_) (fun _ ha => ?_) (by simp) (by simp) (by simp)
  · exact Option.some.inj (hb.symm.trans hf)
  · exact Option.some.inj (ha.symm.trans (h.owner hf))

theorem enter_iff (h : Inverse f m) :
    Inverse (Function.update f a (some b)) (Function.update m b (some a)) ↔
      f a = some b ∨ f a = none ∧ m b = none := by
  constructor
  · intro hnew
    cases hf : f a with
    | none =>
      refine .inr ⟨rfl, Option.eq_none_iff_forall_ne_some.mpr fun a' ha' => ?_⟩
      -- The owner that had the value has it still, and the value names the new one.
      have hne : a' ≠ a := by
        rintro rfl
        rw [h.value ha'] at hf
        cases hf
      have howner := hnew.owner (a := a') (b := b) (by
        rw [Function.update_of_ne hne]
        exact h.value ha')
      rw [Function.update_self] at howner
      exact hne (Option.some.inj howner).symm
    | some old =>
      by_cases hb : old = b
      · exact .inl (congrArg some hb)
      · -- The old value still names the owner, which has the new one.
        have hvalue := hnew.value (a := a) (b := old) (by
          rw [Function.update_of_ne hb]
          exact h.owner hf)
        rw [Function.update_self] at hvalue
        exact absurd (Option.some.inj hvalue).symm hb
  · rintro (hf | ⟨hf, hm⟩)
    · rw [← hf, ← h.owner hf, Function.update_eq_self, Function.update_eq_self]
      exact h
    · exact h.enter hf hm

end Inverse
