import Owls.Base.Word

/-!
# Iterating over a table

`ORM::DB::Iterate`: the records of a table in batches, each given to a callback until it refuses one.
-/

namespace Owls.ORM

/-! ## The code -/

/-- What a call of the callback ends with: true, false, or an exception. -/
inductive Reply where
  | goOn
  | stop
  | throws
deriving DecidableEq

section Code

variable {R σ : Type}

/-- The rows that a where clause selects, in their order. A database counts them in 64 bits. -/
structure Table (R : Type) where
  rows : List R
  size_lt : rows.length < 2 ^ 64

/-- `GetRecords`. `none` is false. -/
def Table.getRecords (t : Table R) (offset howMany : UInt64) : Option (List R) :=
  match (t.rows.drop offset.toNat).take howMany.toNat with
  | [] => none
  | records => some records

variable (F : σ → R → Reply × σ)

/-- The loop over the records of a batch: the state of the callback, the calls, the last reply. -/
def eachRecord : σ → List R → σ × List R × Reply
  | s, [] => (s, [], .goOn)
  | s, r :: rs =>
    match F s r with
    | (.goOn, s) =>
      let v := eachRecord s rs
      (v.1, r :: v.2.1, v.2.2)
    | (reply, s) => (s, [r], reply)

/-- `Iterate` from an offset on, for so many batches at most: the result, the state of the callback
and the calls. -/
def iterateFrom (t : Table R) : Nat → UInt64 → σ → Option (Bool × σ × List R)
  | 0, _, _ => none
  | fuel + 1, offset, s =>
    match t.getRecords offset 50 with
    | none => some (true, s, [])
    | some records =>
      match eachRecord F s records with
      | (s, calls, .stop) => some (true, s, calls)
      | (s, calls, .throws) => some (false, s, calls)
      | (s, calls, .goOn) =>
        if records.length < 50 then some (true, s, calls)
        else (iterateFrom t fuel (offset + 50) s).map fun r => (r.1, r.2.1, calls ++ r.2.2)

def iterate (t : Table R) (fuel : Nat) (s : σ) : Option (Bool × σ × List R) :=
  iterateFrom F t fuel 0 s

/-! ## What the calls are to be -/

/-- What the callback replies when it is given the rows one after another. -/
def replies : σ → List R → List Reply
  | _, [] => []
  | s, r :: rs => (F s r).1 :: replies (F s r).2 rs

/-- The rows in their order, up to the first that the callback does not go on from. -/
structure Visits (s : σ) (rows calls : List R) : Prop where
  inOrder : calls <+: rows
  before : ∀ reply ∈ (replies F s calls).dropLast, reply = .goOn
  ends : calls = rows ∨ ∃ reply, (replies F s calls).getLast? = some reply ∧ reply ≠ .goOn

end Code

/-! ## The batches -/

section Batches

variable {R σ : Type} {F : σ → R → Reply × σ} {t : Table R} {offset : UInt64}

def outcome (v : σ × List R × Reply) : Bool × σ × List R := (decide (v.2.2 ≠ .throws), v.1, v.2.1)

theorem eachRecord_append (s : σ) (xs ys : List R) :
    eachRecord F s (xs ++ ys) =
      if (eachRecord F s xs).2.2 = .goOn then
        ((eachRecord F (eachRecord F s xs).1 ys).1,
          (eachRecord F s xs).2.1 ++ (eachRecord F (eachRecord F s xs).1 ys).2.1,
          (eachRecord F (eachRecord F s xs).1 ys).2.2)
      else eachRecord F s xs := by
  induction xs generalizing s with
  | nil => rfl
  | cons r rs ih =>
    rw [List.cons_append, eachRecord, eachRecord]
    obtain ⟨reply, s'⟩ := F s r
    cases reply with
    | goOn =>
      simp only [ih]
      split <;> rfl
    | stop | throws => rfl

theorem getRecords_eq (t : Table R) (offset : UInt64) : t.getRecords offset 50 =
    if t.rows.drop offset.toNat = [] then none else some ((t.rows.drop offset.toNat).take 50) := by
  have hbatch : (50 : UInt64).toNat = 50 := rfl
  rw [Table.getRecords, hbatch]
  cases t.rows.drop offset.toNat with
  | nil => rfl
  | cons r rs => rfl

theorem toNat_next (t : Table R) {offset : UInt64}
    (h : 50 ≤ ((t.rows.drop offset.toNat).take 50).length) :
    (offset + 50).toNat = offset.toNat + 50 ∧ offset.toNat + 50 ≤ t.rows.length := by
  have hsize := t.size_lt
  have hbatch : (50 : UInt64).toNat = 50 := rfl
  rw [List.length_take, List.length_drop] at h
  have hle : offset.toNat + 50 ≤ t.rows.length := by omega
  refine ⟨?_, hle⟩
  rw [Word.toNat_add_of_lt (by rw [hbatch]; omega), hbatch]

theorem iterateFrom_eq (t : Table R) {fuel : Nat} {offset : UInt64}
    (hoffset : offset.toNat ≤ t.rows.length)
    (hfuel : (t.rows.length - offset.toNat) / 50 < fuel) (s : σ) :
    iterateFrom F t fuel offset s =
      some (outcome (eachRecord F s (t.rows.drop offset.toNat))) := by
  induction fuel generalizing offset s with
  | zero => exact absurd hfuel (Nat.not_lt_zero _)
  | succ fuel ih =>
    rw [iterateFrom, getRecords_eq]
    by_cases hnil : t.rows.drop offset.toNat = []
    · rw [if_pos hnil, hnil]
      rfl
    · simp only [if_neg hnil]
      have hsplit : t.rows.drop offset.toNat =
          (t.rows.drop offset.toNat).take 50 ++ t.rows.drop (offset.toNat + 50) := by
        rw [← List.drop_drop, List.take_append_drop]
      have happend := eachRecord_append (F := F) s ((t.rows.drop offset.toNat).take 50)
        (t.rows.drop (offset.toNat + 50))
      rw [← hsplit] at happend
      rw [happend]
      obtain ⟨s', calls, reply⟩ := eachRecord F s ((t.rows.drop offset.toNat).take 50)
      cases reply with
      | stop | throws => rfl
      | goOn =>
        simp only [if_true]
        by_cases hshort : ((t.rows.drop offset.toNat).take 50).length < 50
        · -- The batch is short: nothing is left after it.
          have hrest : t.rows.drop (offset.toNat + 50) = [] := by
            rw [List.length_take, List.length_drop] at hshort
            exact List.drop_eq_nil_of_le (by omega)
          rw [if_pos hshort, hrest, eachRecord, List.append_nil]
          rfl
        · obtain ⟨hnext, hle⟩ := toNat_next t (Nat.le_of_not_lt hshort)
          rw [if_neg hshort, ih (by omega) (by omega), hnext]
          rfl

/-! ## The calls -/

theorem visits_refused {s s' : σ} {r : R} {reply : Reply} (hreply : F s r = (reply, s'))
    (hne : reply ≠ .goOn) (rs : List R) : Visits F s (r :: rs) [r] := by
  have hreplies : replies F s [r] = [reply] := by rw [replies, replies, hreply]
  refine ⟨List.cons_prefix_cons.mpr ⟨rfl, List.nil_prefix⟩, ?_, .inr ⟨reply, ?_, hne⟩⟩
  · rw [hreplies]
    exact nofun
  · rw [hreplies]
    rfl

theorem visits_accepted {s s' : σ} {r : R} {rs calls : List R} (hreply : F s r = (.goOn, s'))
    (h : Visits F s' rs calls) : Visits F s (r :: rs) (r :: calls) := by
  have hreplies : replies F s (r :: calls) = .goOn :: replies F s' calls := by
    rw [replies, hreply]
  refine ⟨List.cons_prefix_cons.mpr ⟨rfl, h.inOrder⟩, ?_, h.ends.imp (congrArg _) ?_⟩
  · intro reply hmem
    rw [hreplies] at hmem
    cases hmore : replies F s' calls with
    | nil =>
      rw [hmore] at hmem
      cases hmem
    | cons a as =>
      rw [hmore, List.dropLast_cons_cons] at hmem
      rcases List.mem_cons.mp hmem with rfl | hmem
      · rfl
      · exact h.before reply (by rwa [hmore])
  · rintro ⟨reply, hlast, hne⟩
    exact ⟨reply, by rw [hreplies, List.getLast?_cons, hlast]; rfl, hne⟩

theorem visits_eachRecord (s : σ) (rows : List R) :
    Visits F s rows (eachRecord F s rows).2.1 := by
  induction rows generalizing s with
  | nil => exact ⟨List.nil_prefix, nofun, .inl rfl⟩
  | cons r rs ih =>
    rw [eachRecord]
    cases hreply : F s r with
    | mk reply s' =>
      cases reply with
      | goOn => exact visits_accepted hreply (ih s')
      | stop | throws => exact visits_refused hreply nofun rs

theorem last_eachRecord (s : σ) (rows : List R) :
    (replies F s (eachRecord F s rows).2.1).getLast?.getD .goOn = (eachRecord F s rows).2.2 := by
  induction rows generalizing s with
  | nil => rfl
  | cons r rs ih =>
    rw [eachRecord]
    cases hreply : F s r with
    | mk reply s' =>
      cases reply with
      | goOn =>
        simp only [replies, hreply, List.getLast?_cons, Option.getD_some]
        exact ih s'
      | stop | throws => simp only [replies, hreply, List.getLast?_singleton, Option.getD_some]

/-- With a batch more than the table fills, the callback is given its rows in their order, each
once, up to the first that it does not go on from, and only an exception makes the result false. -/
theorem iterate_visits (F : σ → R → Reply × σ) (t : Table R) (s : σ) :
    ∃ ok s' calls, (∀ fuel, t.rows.length / 50 < fuel → iterate F t fuel s = some (ok, s', calls)) ∧
      Visits F s t.rows calls ∧
      (ok = true ↔ (replies F s calls).getLast? ≠ some .throws) := by
  have hlast := last_eachRecord (F := F) s t.rows
  refine ⟨_, _, _, fun fuel hfuel => iterateFrom_eq t (Nat.zero_le _) hfuel s,
    visits_eachRecord s t.rows, ?_⟩
  have hdrop : t.rows.drop (0 : UInt64).toNat = t.rows := rfl
  rw [hdrop, decide_eq_true_iff, ← hlast, not_iff_not]
  cases (replies F s (eachRecord F s t.rows).2.1).getLast? with
  | none => simp
  | some reply => simp

end Batches

end Owls.ORM
