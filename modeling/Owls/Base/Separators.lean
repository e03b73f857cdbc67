/-!
# Texts with separators

A text that a loop puts together from pieces, with a separator before each piece but the first,
and the pieces of a text between separators.
-/

namespace Separators

/-- The loop tells by the text so far whether a piece is the first. -/
def add (sep acc piece : String) : String := (if acc = "" then acc else acc ++ sep) ++ piece

def addAll (sep acc : String) (pieces : List String) : String := pieces.foldl (add sep) acc

variable {sep acc piece s : String} {pieces : List String} {c : Char}

theorem intercalate_cons {α : Type} (sep xs : List α) (xss : List (List α)) :
    sep.intercalate (xs :: xss) = xs ++ xss.flatMap (sep ++ ·) := by
  induction xss generalizing xs with
  | nil => simp
  | cons ys yss ih => rw [List.intercalate_cons_cons, ih, List.flatMap_cons, List.append_assoc,
      List.append_assoc]

theorem toList_addAll (hne : acc ≠ "") (pieces : List String) :
    (addAll sep acc pieces).toList =
      acc.toList ++ pieces.flatMap fun p => sep.toList ++ p.toList := by
  induction pieces generalizing acc with
  | nil => simp [addAll]
  | cons p ps ih =>
    have hadd : add sep acc p = acc ++ sep ++ p := by rw [add, if_neg hne]
    have hne' : acc ++ sep ++ p ≠ "" := by simp [String.append_eq_empty_iff, hne]
    have hall : addAll sep acc (p :: ps) = addAll sep (acc ++ sep ++ p) ps := by
      rw [addAll, List.foldl_cons, hadd]
      rfl
    rw [hall, ih hne', List.flatMap_cons]
    simp only [String.toList_append, List.append_assoc]

theorem toList_addAll_empty (sep : String) (h : ∀ p ∈ pieces, p ≠ "") :
    (addAll sep "" pieces).toList = sep.toList.intercalate (pieces.map String.toList) := by
  cases pieces with
  | nil => rfl
  | cons p ps =>
    have hall : addAll sep "" (p :: ps) = addAll sep p ps := by
      rw [addAll, List.foldl_cons, add, if_pos rfl, String.empty_append]
      rfl
    rw [hall, toList_addAll (h p List.mem_cons_self), List.map_cons, intercalate_cons,
      List.flatMap_map]

theorem addAll_empty_eq (sep : String) (h : ∀ p ∈ pieces, p ≠ "") :
    addAll sep "" pieces = "" ↔ pieces = [] := by
  constructor
  · intro heq
    cases pieces with
    | nil => rfl
    | cons p ps =>
      have htext := toList_addAll_empty sep h
      rw [heq, List.map_cons, intercalate_cons] at htext
      have hp := (List.append_eq_nil_iff.mp htext.symm).1
      exact absurd (String.toList_eq_nil_iff.mp hp) (h p List.mem_cons_self)
  · rintro rfl
    rfl

end Separators
