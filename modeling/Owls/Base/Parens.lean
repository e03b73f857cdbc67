/-!
# Parentheses

How deep a text leaves its parentheses, the texts that close what they open, and the texts that
hold others in their order.
-/

namespace Parens

variable {d e k : Nat} {xs ys : List Char}

/-- One character. `none`: it closes a parenthesis that is not open. -/
def turn (d : Nat) (c : Char) : Option Nat :=
  if c = '(' then some (d + 1)
  else if c = ')' then if d = 0 then none else some (d - 1)
  else some d

/-- The parentheses that are open after the text. -/
def depth (d : Nat) (cs : List Char) : Option Nat := cs.foldlM turn d

def Balanced (cs : List Char) : Prop := depth 0 cs = some 0

instance (cs : List Char) : Decidable (Balanced cs) := inferInstanceAs (Decidable (_ = _))

theorem depth_cons (d : Nat) (c : Char) (cs : List Char) :
    depth d (c :: cs) = (turn d c).bind (depth · cs) := by
  rw [depth, List.foldlM_cons]
  rfl

theorem depth_append (d : Nat) (xs ys : List Char) :
    depth d (xs ++ ys) = (depth d xs).bind (depth · ys) := by
  rw [depth, List.foldlM_append]
  rfl

theorem turn_add {c : Char} (h : turn d c = some e) (k : Nat) : turn (d + k) c = some (e + k) := by
  unfold turn at h ⊢
  split at h
  · rename_i hopen
    cases h
    rw [if_pos hopen, Nat.add_right_comm]
  · rename_i hopen
    split at h
    · rename_i hclose
      split at h
      · cases h
      · cases h
        rw [if_neg hopen, if_pos hclose, if_neg (by omega)]
        congr 1
        omega
    · rename_i hclose
      cases h
      rw [if_neg hopen, if_neg hclose]

theorem depth_add (h : depth d xs = some e) (k : Nat) : depth (d + k) xs = some (e + k) := by
  induction xs generalizing d with
  | nil =>
    cases h
    rfl
  | cons c cs ih =>
    rw [depth_cons] at h ⊢
    obtain ⟨d', hturn, hcs⟩ := Option.bind_eq_some_iff.mp h
    rw [turn_add hturn, Option.bind_some, ih hcs]

theorem Balanced.depth (h : Balanced xs) (d : Nat) : depth d xs = some d := by
  have hadd := depth_add h d
  rwa [Nat.zero_add] at hadd

theorem Balanced.append (hx : Balanced xs) (hy : Balanced ys) : Balanced (xs ++ ys) := by
  rw [Balanced, depth_append, hx.depth, Option.bind_some, hy.depth]

theorem depth_close (d k : Nat) :
    Parens.depth d (List.replicate k ')') = if k ≤ d then some (d - k) else none := by
  induction k generalizing d with
  | zero => rfl
  | succ k ih =>
    cases d with
    | zero => rfl
    | succ d =>
      have hstep : Parens.depth (d + 1) (List.replicate (k + 1) ')') =
          Parens.depth d (List.replicate k ')') := rfl
      rw [hstep, ih, Nat.succ_sub_succ]
      simp only [Nat.add_le_add_iff_right]

theorem balanced_paren (h : Balanced xs) (k : Nat) :
    Balanced ('(' :: (xs ++ List.replicate k ')')) ↔ k = 1 := by
  have hopen : Parens.depth 0 ('(' :: (xs ++ List.replicate k ')')) =
      Parens.depth 1 (xs ++ List.replicate k ')') := rfl
  rw [Balanced, hopen, depth_append, h.depth, Option.bind_some, depth_close]
  split
  · rw [Option.some.injEq]
    omega
  · simp only [reduceCtorEq, false_iff]
    omega

/-! ## What a text holds -/

/-- The pieces stand in the text one after another, with or without anything between them. -/
def InOrder : List (List Char) → List Char → Prop
  | [], _ => True
  | p :: ps, cs => ∃ before after, cs = before ++ (p ++ after) ∧ InOrder ps after

theorem inOrder_flatten (ps : List (List Char)) (cs : List Char) : InOrder ps (ps.flatten ++ cs) := by
  induction ps with
  | nil => trivial
  | cons p ps ih => exact ⟨[], ps.flatten ++ cs, by simp, ih⟩

theorem InOrder.prepend {ps : List (List Char)} {cs : List Char} (h : InOrder ps cs)
    (xs : List Char) : InOrder ps (xs ++ cs) := by
  cases ps with
  | nil => trivial
  | cons p ps =>
    obtain ⟨before, after, rfl, hafter⟩ := h
    exact ⟨xs ++ before, after, by simp, hafter⟩

end Parens
