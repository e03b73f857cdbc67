import Mathlib.Data.List.Basic

/-!
# Rows of a table

A row is a tuple whose slots have types of their own. A record is written to a row and read
back by position, while its members and the columns of the table have names.
-/

namespace Rows

variable {κ : Type} (El : κ → Type)

def Tuple : List κ → Type
  | [] => Unit
  | k :: ks => El k × Tuple ks

abbrev Value := Σ k, El k

variable {El}

def Tuple.get : {ks : List κ} → Tuple El ks → (i : Nat) → (h : i < ks.length := by decide) → El ks[i]
  | _ :: _, (v, _), 0, _ => v
  | _ :: _, (_, t), i + 1, h => get t i (Nat.lt_of_succ_lt_succ h)

def Tuple.values : {ks : List κ} → Tuple El ks → List (Value El)
  | [], _ => []
  | k :: _, (v, t) => ⟨k, v⟩ :: values t

/-- A tuple of values that come one by one. `none`: they are not of its types. -/
def Tuple.ofValues? [DecidableEq κ] : (ks : List κ) → List (Value El) → Option (Tuple El ks)
  | [], [] => some ()
  | k :: ks, ⟨k', v⟩ :: vs =>
    if h : k' = k then (ofValues? ks vs).map fun t => (h ▸ v, t) else none
  | [], _ :: _ | _ :: _, [] => none

theorem Tuple.ofValues?_values [DecidableEq κ] {ks : List κ} (t : Tuple El ks) :
    Tuple.ofValues? ks t.values = some t := by
  induction ks with
  | nil => rfl
  | cons k ks ih =>
    obtain ⟨v, t⟩ := t
    simp only [Tuple.values, Tuple.ofValues?, ih, dite_true]
    rfl

@[simp] theorem Tuple.length_values {ks : List κ} (t : Tuple El ks) :
    t.values.length = ks.length := by
  induction ks with
  | nil => rfl
  | cons k ks ih =>
    obtain ⟨v, t⟩ := t
    simp [Tuple.values, ih]

/-! ## Records and their rows -/

variable {R : Type} {ks : List κ} {columns : List String} {member : R → String → Option (Value El)}
  {toRow : R → Tuple El ks} {ofRow : Tuple El ks → R}

/-- At every position, the row holds the member that the column there names, and the member is
read from there. -/
structure Aligned (columns : List String) (member : R → String → Option (Value El))
    (toRow : R → Tuple El ks) (ofRow : Tuple El ks → R) : Prop where
  writes : ∀ (i : Nat) (r : R), columns[i]?.map (member r) = (toRow r).values[i]?.map some
  reads : ∀ (i : Nat) (t : Tuple El ks),
    columns[i]?.map (member (ofRow t)) = t.values[i]?.map some

theorem aligned_iff :
    Aligned columns member toRow ofRow ↔
      (∀ r, columns.map (member r) = (toRow r).values.map some) ∧
      ∀ t, columns.map (member (ofRow t)) = t.values.map some := by
  have hmap {f : String → Option (Value El)} {vs : List (Value El)} :
      columns.map f = vs.map some ↔ ∀ i : Nat, columns[i]?.map f = vs[i]?.map some := by
    simp only [List.ext_getElem?_iff, List.getElem?_map]
  simp only [hmap]
  exact ⟨fun h => ⟨fun r i => h.writes i r, fun t i => h.reads i t⟩,
    fun h => ⟨fun i r => h.1 r i, fun i t => h.2 t i⟩⟩

theorem Aligned.restores (h : Aligned columns member toRow ofRow) (r : R) :
    ∀ c ∈ columns, member (ofRow (toRow r)) c = member r c := by
  have hboth := ((aligned_iff.mp h).2 (toRow r)).trans ((aligned_iff.mp h).1 r).symm
  exact List.map_inj_left.mp hboth

theorem Aligned.restores_iff (h : Aligned columns member toRow ofRow) (r : R)
    {names : List String} :
    (∀ c ∈ names, member (ofRow (toRow r)) c = member r c) ↔
      ∀ c ∈ names, c ∉ columns → member (ofRow (toRow r)) c = member r c := by
  constructor
  · exact fun hall c hc _ => hall c hc
  · intro hrest c hc
    by_cases hcol : c ∈ columns
    · exact h.restores r c hcol
    · exact hrest c hc hcol

end Rows
