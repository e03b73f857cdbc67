import Mathlib.Data.List.TakeWhile
import Mathlib.Order.Lattice
import Mathlib.Tactic.Tauto

/-!
# Multimaps

Entries in the order of their keys, and entries of one key in the order in which they were put in.
What a multimap holds of a key is compared with any other list of entries by `valuesAt`.
-/

variable {κ α : Type*}

/-- The values of a key, in the order of the list. -/
def valuesAt [DecidableEq κ] (k : κ) (entries : List (κ × α)) : List α :=
  entries.filterMap fun x => if x.1 = k then some x.2 else none

section
variable [DecidableEq κ] {k : κ} {xs ys : List (κ × α)}

@[simp] theorem valuesAt_nil : valuesAt k ([] : List (κ × α)) = [] := rfl

@[simp] theorem valuesAt_append : valuesAt k (xs ++ ys) = valuesAt k xs ++ valuesAt k ys :=
  List.filterMap_append

theorem valuesAt_cons (x : κ × α) :
    valuesAt k (x :: xs) = (if x.1 = k then [x.2] else []) ++ valuesAt k xs := by
  unfold valuesAt
  by_cases h : x.1 = k <;> simp [h]

theorem valuesAt_eq_nil (h : ∀ x ∈ xs, x.1 ≠ k) : valuesAt k xs = [] :=
  List.filterMap_eq_nil_iff.mpr fun x hx => if_neg (h x hx)

end

structure Multimap (κ α : Type*) [LinearOrder κ] where
  entries : List (κ × α) := []
  sorted : entries.Pairwise (·.1 ≤ ·.1) := by exact List.Pairwise.nil

namespace Multimap

variable [LinearOrder κ] (m : Multimap κ α) (k : κ) (a : α) {l : List (κ × α)} {x : κ × α}

theorem le_of_mem_takeWhile (h : x ∈ l.takeWhile (·.1 ≤ k)) : x.1 ≤ k := by
  simpa using List.mem_takeWhile_imp h

variable {k} in
theorem lt_of_mem_dropWhile (hl : l.Pairwise (·.1 ≤ ·.1)) (h : x ∈ l.dropWhile (·.1 ≤ k)) :
    k < x.1 := by
  induction l with
  | nil => cases h
  | cons y l ih =>
    rw [List.pairwise_cons] at hl
    by_cases hy : y.1 ≤ k
    · rw [List.dropWhile_cons_of_pos (by simpa using hy)] at h
      exact ih hl.2 h
    · rw [List.dropWhile_cons_of_neg (by simpa using hy)] at h
      rcases List.mem_cons.mp h with rfl | h
      · exact not_le.mp hy
      · exact (not_le.mp hy).trans_le (hl.1 x h)

/-- A new entry comes after those of its own key. -/
def emplace : Multimap κ α where
  entries := m.entries.takeWhile (·.1 ≤ k) ++ (k, a) :: m.entries.dropWhile (·.1 ≤ k)
  sorted := by
    have hdrop {x : κ × α} (hx : x ∈ m.entries.dropWhile (·.1 ≤ k)) : k ≤ x.1 :=
      (lt_of_mem_dropWhile m.sorted hx).le
    refine List.pairwise_append.mpr ⟨m.sorted.sublist (List.takeWhile_sublist _),
      List.pairwise_cons.mpr ⟨fun x hx => hdrop hx,
        m.sorted.sublist (List.dropWhile_sublist _)⟩, ?_⟩
    intro x hx y hy
    have hxk := le_of_mem_takeWhile k hx
    rcases List.mem_cons.mp hy with rfl | hy
    · exact hxk
    · exact hxk.trans (hdrop hy)

/-- The entries before the upper bound of a key. -/
def upTo : List (κ × α) := m.entries.takeWhile (·.1 ≤ k)

/-- The entries from the upper bound of a key on. -/
def after : Multimap κ α where
  entries := m.entries.dropWhile (·.1 ≤ k)
  sorted := m.sorted.sublist (List.dropWhile_sublist _)

def emplaceAll (entries : List (κ × α)) : Multimap κ α :=
  entries.foldl (fun m x => m.emplace x.1 x.2) m

def first? : Option κ := m.entries.head?.map (·.1)

variable {m k a}

@[simp] theorem upTo_append_after : m.upTo k ++ (m.after k).entries = m.entries :=
  List.takeWhile_append_dropWhile

theorem le_of_mem_upTo (h : x ∈ m.upTo k) : x.1 ≤ k := le_of_mem_takeWhile k h

theorem lt_of_mem_after (h : x ∈ (m.after k).entries) : k < x.1 := lt_of_mem_dropWhile m.sorted h

theorem mem_emplace : x ∈ (m.emplace k a).entries ↔ x = (k, a) ∨ x ∈ m.entries := by
  have hall : x ∈ m.entries ↔ x ∈ m.upTo k ∨ x ∈ (m.after k).entries := by
    rw [← List.mem_append, upTo_append_after]
  rw [hall]
  simp only [emplace, upTo, after, List.mem_append, List.mem_cons]
  tauto

theorem valuesAt_emplace (k' : κ) : valuesAt k' (m.emplace k a).entries =
    valuesAt k' m.entries ++ if k = k' then [a] else [] := by
  have hsplit : valuesAt k' m.entries =
      valuesAt k' (m.upTo k) ++ valuesAt k' (m.after k).entries := by
    rw [← valuesAt_append, upTo_append_after]
  have hemplace : valuesAt k' (m.emplace k a).entries =
      valuesAt k' (m.upTo k) ++
        ((if k = k' then [a] else []) ++ valuesAt k' (m.after k).entries) := by
    rw [← valuesAt_cons (k, a), ← valuesAt_append]
    rfl
  rw [hemplace, hsplit]
  by_cases hk : k = k'
  · subst hk
    have hafter : valuesAt k (m.after k).entries = [] :=
      valuesAt_eq_nil fun x hx => (lt_of_mem_after hx).ne'
    simp [hafter]
  · simp [hk]

theorem valuesAt_emplaceAll (k : κ) (entries : List (κ × α)) :
    valuesAt k (m.emplaceAll entries).entries = valuesAt k m.entries ++ valuesAt k entries := by
  induction entries generalizing m with
  | nil => simp [emplaceAll]
  | cons x entries ih =>
    have hcons : m.emplaceAll (x :: entries) = (m.emplace x.1 x.2).emplaceAll entries := rfl
    rw [hcons, ih, valuesAt_emplace, valuesAt_cons, List.append_assoc]

theorem emplace_perm : (m.emplace k a).entries.Perm ((k, a) :: m.entries) := by
  have hperm : (m.emplace k a).entries.Perm ((k, a) :: (m.upTo k ++ (m.after k).entries)) :=
    List.perm_middle
  rwa [upTo_append_after] at hperm

theorem emplaceAll_perm (entries : List (κ × α)) :
    (m.emplaceAll entries).entries.Perm (entries ++ m.entries) := by
  induction entries generalizing m with
  | nil => exact List.Perm.refl _
  | cons x entries ih =>
    have hcons : m.emplaceAll (x :: entries) = (m.emplace x.1 x.2).emplaceAll entries := rfl
    rw [hcons]
    calc ((m.emplace x.1 x.2).emplaceAll entries).entries.Perm
          (entries ++ (m.emplace x.1 x.2).entries) := ih
      List.Perm _ (entries ++ x :: m.entries) := emplace_perm.append_left _
      List.Perm _ (x :: entries ++ m.entries) := List.perm_middle

theorem countP_after : (m.after k).entries.countP (·.1 ≤ k) = 0 := by
  rw [List.countP_eq_zero]
  exact fun x hx => by simpa using lt_of_mem_after hx

theorem length_upTo : (m.upTo k).length = m.entries.countP (·.1 ≤ k) := by
  have hall : (m.upTo k).countP (·.1 ≤ k) = (m.upTo k).length := by
    rw [List.countP_eq_length]
    exact fun x hx => by simpa using le_of_mem_upTo hx
  rw [← upTo_append_after (m := m) (k := k), List.countP_append, hall, countP_after, Nat.add_zero]

theorem first?_mem (h : m.first? = some k) : ∃ x ∈ m.entries, x.1 = k := by
  obtain ⟨x, hx, rfl⟩ := Option.map_eq_some_iff.mp h
  exact ⟨x, List.mem_of_head? hx, rfl⟩

theorem first?_eq_none : m.first? = none ↔ m.entries = [] := by
  simp [first?]

theorem first?_le (h : m.first? = some k) (hx : x ∈ m.entries) : k ≤ x.1 := by
  obtain ⟨y, hy, rfl⟩ := Option.map_eq_some_iff.mp h
  obtain ⟨l, hl⟩ := List.head?_eq_some_iff.mp hy
  have hsorted := m.sorted
  rw [hl] at hx hsorted
  rcases List.mem_cons.mp hx with rfl | hx
  · exact le_rfl
  · exact (List.pairwise_cons.mp hsorted).1 x hx

end Multimap
