import Mathlib.Algebra.Order.Ring.Rat
import Mathlib.Data.String.Basic
import Mathlib.Data.Sum.Order
import Mathlib.Order.WithBot
import Owls.Iterate
import Owls.Queries

/-!
# Chosen records

`ORM::DB`: what `GetRecords`, `Count`, `DeleteRecords` and `Iterate` do with the records that a
condition chooses.
-/

open Machine Rows Sql

namespace Owls.ORM

/-! ## The calls -/

section Calls

variable {R : Type} (d : Dialect Slot) (m : Mapping R) (t : Sql.Table Slot) (served : Bool)

/-- The records that are added. `none` is false. -/
def getRecords (offset howMany : UInt64) (condition orderBy : String) : Option (List R) :=
  match attempt served <|
      (readSelection (m.db.recordsStatement offset howMany condition orderBy)).bind
        (·.exec d t) with
  | none | some [] => none
  | some rows => rows.mapM fun vs => (Tuple.ofValues? m.slots vs).map m.ofRecord

def count (condition : String) : UInt64 :=
  match attempt served <|
      (readCounting (m.db.countStatement condition)).bind (·.exec d t) with
  | none => 0
  | some n => .ofNat n

def deleteRecords (condition : String) : Bool × Sql.Table Slot :=
  changed t <| attempt served <|
    (readDeletion (m.db.deleteWhere condition)).bind (·.exec d t)

end Calls

/-! ## What the calls do to the records -/

section Stored

variable {R : Type} (d : Dialect Slot) (m : Mapping R) (s : Store m.layout.keyOf) (served : Bool)
  {w : Where} {o : Order}

/-- The records that a condition chooses, in an order, and of these a range or all. -/
def records (w : Where) (o : Order) (limit : Option (Nat × Nat)) : List R :=
  (m.layout.selected d s w.meaning o.items limit).map m.restored

/-- No records are no answer. -/
def answered (rs : List R) : Option (List R) := if rs.isEmpty then none else some rs

theorem mapM_restored (rs : List R) : (rs.map fun r => (m.layout.pairs r).map (·.2)).mapM
    (fun vs => (Tuple.ofValues? m.slots vs).map m.ofRecord) = some (rs.map m.restored) := by
  have hvalues (r : R) : (m.layout.pairs r).map (·.2) = (m.toRecord r).values :=
    List.map_snd_zip (by rw [columnNames_length, m.length_values])
  induction rs with
  | nil => rfl
  | cons r rs ih =>
    simp only [List.map_cons, List.mapM_cons, hvalues, Tuple.ofValues?_values] at ih ⊢
    rw [ih]
    rfl

theorem getRecords_table (hw : w.Known m.db) (ho : ∀ name ∈ o.names, m.db.hasField name)
    (offset howMany : UInt64) :
    getRecords d m (m.layout.table s) served offset howMany w.text o.text =
      (attempt served (some (records d m s w o (some (howMany.toNat, offset.toNat))))).bind
        answered := by
  obtain ⟨q, hread, htable, hcolumns, hsaying, horder, hlimit⟩ :=
    readSelection_records m.db offset howMany (Where.filters hw.whole) ho
  have hexec := m.layout.exec_selection d s htable hcolumns (hsaying ▸ hw.columns)
    (horder ▸ Order.columns ho)
  rw [hsaying, horder, hlimit] at hexec
  rw [getRecords, hread, Option.bind_some, hexec, records]
  cases served with
  | false => rfl
  | true =>
    cases m.layout.selected d s w.meaning o.items (some (howMany.toNat, offset.toNat)) with
    | nil => rfl
    | cons r rs => exact mapM_restored m (r :: rs)

theorem count_table (hw : w.Known m.db) : count d m (m.layout.table s) served w.text =
    if served then .ofNat (s.records.countP (m.layout.chosen d w.meaning)) else 0 := by
  obtain ⟨q, hread, htable, hsaying⟩ := readCounting_count m.db (Where.filters hw.whole)
  have hexec := m.layout.exec_counting d s htable (hsaying ▸ hw.columns)
  rw [hsaying] at hexec
  rw [count, hread, Option.bind_some, hexec]
  cases served <;> rfl

theorem deleteRecords_table (hw : w.Known m.db) (hne : w.text ≠ "") :
    deleteRecords d m (m.layout.table s) served w.text = Prod.map id m.layout.table
      (changed s (attempt served (some (s.without (m.layout.chosen d w.meaning))))) := by
  obtain ⟨q, hread, htable, hsaying⟩ := readDeletion_delete m.db hne (Where.filters hw.whole)
  have hexec := m.layout.exec_deletion d s htable (hsaying ▸ hw.columns)
  rw [hsaying] at hexec
  rw [deleteRecords, hread, Option.bind_some, hexec]
  cases served <;> rfl

end Stored

/-! ## Sessions -/

/-- A call by the key, or one with a condition. -/
inductive Call (R : Type) where
  | access (a : Access R)
  | getRecords (offset howMany : UInt64) (w : Where) (o : Order) (served : Bool)
  | count (w : Where) (served : Bool)
  | deleteRecords (w : Where) (served : Bool)

inductive Given (R : Type) where
  | answer (a : Answer R)
  | records (rs : Option (List R))
  | count (n : UInt64)

/-- What the caller sees to: the operands, the fields, and that it does not delete all records. -/
def Call.Known {R : Type} (db : DB) : Call R → Prop
  | .access _ => True
  | .getRecords _ _ w o _ => w.Known db ∧ ∀ name ∈ o.names, db.hasField name
  | .count w _ => w.Known db
  | .deleteRecords w _ => w.Known db ∧ w.text ≠ ""

section Sessions

variable {R : Type} (d : Dialect Slot) (m : Mapping R)

def serve (t : Sql.Table Slot) : Call R → Given R × Sql.Table Slot
  | .access a => (perform m t a).map .answer id
  | .getRecords offset howMany w o served =>
    (.records (getRecords d m t served offset howMany w.text o.text), t)
  | .count w served => (.count (count d m t served w.text), t)
  | .deleteRecords w served =>
    (deleteRecords d m t served w.text).map (fun done => .answer ⟨done, none⟩) id

/-- What the calls mean on the list of records. -/
def serveOn (s : Store m.layout.keyOf) : Call R → Given R × Store m.layout.keyOf
  | .access a => (performOn m s a).map .answer id
  | .getRecords offset howMany w o served =>
    (.records ((attempt served (some (records d m s w o
      (some (howMany.toNat, offset.toNat))))).bind answered), s)
  | .count w served =>
    (.count (if served then .ofNat (s.records.countP (m.layout.chosen d w.meaning)) else 0), s)
  | .deleteRecords w served =>
    (changed s (attempt served (some (s.without (m.layout.chosen d w.meaning))))).map
      (fun done => .answer ⟨done, none⟩) id

theorem serve_table (s : Store m.layout.keyOf) {c : Call R} (h : c.Known m.db) :
    serve d m (m.layout.table s) c = (serveOn d m s c).map id m.layout.table := by
  cases c with
  | access a =>
    simp only [serve, serveOn, perform_table, Prod.map_map]
    rfl
  | getRecords offset howMany w o served =>
    simp only [serve, serveOn, getRecords_table d m s served h.1 h.2]
    rfl
  | count w served =>
    simp only [serve, serveOn, count_table d m s served h]
    rfl
  | deleteRecords w served =>
    simp only [serve, serveOn, deleteRecords_table d m s served h.1 h.2, Prod.map_map]
    rfl

/-- In every session of calls by the key and with conditions, also with accesses that fail, the
statements answer as the list of records does, and leave the rows of its records. -/
theorem queries_exact (s : Store m.layout.keyOf) (answers : List (Given R)) {cs : List (Call R)}
    (h : ∀ c ∈ cs, c.Known m.db) :
    run (Session.step (serve d m)) ⟨m.layout.table s, answers⟩ cs =
      (run (Session.step (serveOn d m)) ⟨s, answers⟩ cs).map
        fun x => ⟨m.layout.table x.state, x.answers⟩ :=
  session_map (fun c hc s => serve_table d m s (h c hc)) s answers

end Sessions

/-- SQLite: numbers before texts, and `NULL` before both. -/
def rank : Slot ⊕ Constant → Lex (ℚ ⊕ String)
  | .inl ⟨.number, n⟩ => Sum.inlₗ (UInt64.toNat n : ℚ)
  | .inl ⟨.text, s⟩ | .inr (.text s) => Sum.inrₗ s
  | .inr (.truth b) => Sum.inlₗ (if b then 1 else 0)
  | .inr (.integer n) => Sum.inlₗ (n : ℚ)
  | .inr (.decimal negative whole fraction) =>
    Sum.inlₗ ((if negative then -1 else 1) *
      ((whole : ℚ) + numberOf fraction / 10 ^ fraction.length))

def rankOf (v : Option Slot) : WithBot (Lex (ℚ ⊕ String)) := v.map fun v => rank (.inl v)

def sqlite : Dialect Slot where
  holds op a b :=
    match op with
    | .eq => rank a = rank b
    | .ne => rank a ≠ rank b
    | .lt => rank a < rank b
    | .le => rank a ≤ rank b
    | .gt => rank b < rank a
    | .ge => rank b ≤ rank a
  before a b := rankOf a ≤ rankOf b
  arrange le rs := rs.mergeSort le
  before_total a b := by simpa using le_total (rankOf a) (rankOf b)
  before_trans a b c h h' := by
    simp only [decide_eq_true_eq] at *
    exact h.trans h'
  arrange_perm le rs := rs.mergeSort_perm le
  arrange_sorted le rs htotal htrans :=
    List.pairwise_mergeSort htrans (fun a b => by simpa using htotal a b) rs
  arrange_map f le rs := (List.map_mergeSort (s := le) (f := f) fun _ _ _ _ => rfl).symm

abbrev asked : List (Call SimulationDetails) :=
  [.access (.create { id := "1", name := "a" } true),
   .getRecords 0 10
      (.two (.op ⟨"Id", Eq.refl true⟩ .eq (.text "1")) .or
        (.op ⟨"devices", Eq.refl true⟩ .gt (.integer 5)))
      (.prepared [⟨"Name", true⟩, ⟨"id", false⟩]) true,
   .count (.whereAnd []) true,
   .deleteRecords (.op ⟨"name", Eq.refl true⟩ .neq (.text "b")) true]

theorem queries_exact_asked :
    run (Session.step (serve sqlite (simulations .sqlite)))
        ⟨(simulations .sqlite).layout.table {}, []⟩ asked =
      (run (Session.step (serveOn sqlite (simulations .sqlite))) ⟨{}, []⟩ asked).map
        fun x => ⟨(simulations .sqlite).layout.table x.state, x.answers⟩ :=
  queries_exact sqlite (simulations .sqlite) {} [] (by
    simp only [asked, List.forall_mem_cons, Call.Known]
    refine ⟨trivial, ⟨⟨⟨⟨trivial, op_ne_empty _ _ _⟩, trivial, op_ne_empty _ _ _⟩, ?_⟩, ?_⟩,
      ⟨trivial, nofun⟩, ⟨⟨trivial, ?_⟩, op_ne_empty _ _ _⟩, nofun⟩
    all_goals decide +kernel)

/-! ## Pages -/

section Pages

theorem flatMap_pages {β : Type} (l : List β) (n k : Nat) :
    ((List.range k).flatMap fun i => (l.drop (i * n)).take n) = l.take (k * n) := by
  induction k with
  | zero => simp
  | succ k ih =>
    rw [List.range_succ, List.flatMap_append, ih, List.flatMap_singleton, Nat.succ_mul,
      List.take_add]

variable {R : Type} (d : Dialect Slot) (m : Mapping R) (s : Store m.layout.keyOf) {w : Where}
  {o : Order}

theorem records_range (w : Where) (o : Order) (howMany offset : Nat) :
    records d m s w o (some (howMany, offset)) =
      ((records d m s w o none).drop offset).take howMany := by
  simp only [records, Layout.selected, slice, List.map_take, List.map_drop]

theorem row_restored (r : R) : m.layout.row (m.restored r) = m.layout.row r := by
  rw [Layout.row, Layout.row, pairs_restored]

theorem records_perm (w : Where) (o : Order) : (records d m s w o none).Perm
    ((s.records.filter (m.layout.chosen d w.meaning)).map m.restored) :=
  (d.arrange_perm _ _).map _

theorem records_ordered (w : Where) (o : Order) : (records d m s w o none).Pairwise
    fun a b => ordered d o.items (m.layout.row a) (m.layout.row b) := by
  have hsorted := d.arrange_sorted (fun a b => ordered d o.items (m.layout.row a) (m.layout.row b))
    (s.records.filter (m.layout.chosen d w.meaning)) (fun _ _ => ordered_total ..)
    (fun _ _ _ h h' => ordered_trans d _ _ _ _ h h')
  refine List.pairwise_map.mpr (hsorted.imp fun h => ?_)
  rwa [row_restored, row_restored]

theorem getD_answered (rs : List R) : (answered rs).getD [] = rs := by
  cases rs <;> rfl

/-- Pages of one size, each asked for with the offset behind the one before, are together the
records that the condition chooses, each once, in the order that is asked for. -/
theorem pages_exact (hw : w.Known m.db) (ho : ∀ name ∈ o.names, m.db.hasField name)
    {size : UInt64} {k : Nat} (hall : s.records.length ≤ k * size.toNat)
    (hsize : k * size.toNat < 2 ^ 64) :
    ∃ all, ((List.range k).flatMap fun i => (getRecords d m (m.layout.table s) true
        (.ofNat (i * size.toNat)) size w.text o.text).getD []) = all ∧
      all.Perm ((s.records.filter (m.layout.chosen d w.meaning)).map m.restored) ∧
      all.Pairwise fun a b => ordered d o.items (m.layout.row a) (m.layout.row b) := by
  refine ⟨records d m s w o none, ?_, records_perm d m s w o, records_ordered d m s w o⟩
  have hlength : (records d m s w o none).length ≤ k * size.toNat := by
    have hperm := (records_perm d m s w o).length_eq
    have hfilter := List.length_filter_le (m.layout.chosen d w.meaning) s.records
    rw [List.length_map] at hperm
    omega
  have hpage : ∀ i ∈ List.range k, (getRecords d m (m.layout.table s) true
      (.ofNat (i * size.toNat)) size w.text o.text).getD [] =
        ((records d m s w o none).drop (i * size.toNat)).take size.toNat := by
    intro i hi
    have hlt : i * size.toNat < 2 ^ 64 :=
      Nat.lt_of_le_of_lt (Nat.mul_le_mul_right _ (List.mem_range.mp hi).le) hsize
    rw [getRecords_table d m s true hw ho, UInt64.toNat_ofNat_of_lt' hlt, records_range]
    exact getD_answered _
  rw [List.flatMap_congr hpage, flatMap_pages, List.take_of_length_le hlength]

def twoDefinitions : Store (simulations .sqlite).layout.keyOf where
  records := [{ id := "1", devices := 7 }, { id := "2", devices := 9 }]
  unique := by decide +kernel

abbrev manyDevices : Where := .op ⟨"Devices", Eq.refl true⟩ .gt (.integer 5)

theorem manyDevices_known : manyDevices.Known (simulations .sqlite).db :=
  ⟨trivial, by decide +kernel⟩

theorem pages_exact_two :
    ∃ all, ((List.range 2).flatMap fun i => (getRecords sqlite (simulations .sqlite)
        ((simulations .sqlite).layout.table twoDefinitions) true (.ofNat (i * (1 : UInt64).toNat)) 1
        manyDevices.text (Order.prepared [⟨"id", true⟩]).text).getD []) = all ∧
      all.Perm ((twoDefinitions.records.filter
        ((simulations .sqlite).layout.chosen sqlite manyDevices.meaning)).map
          (simulations .sqlite).restored) ∧
      all.Pairwise fun a b => ordered sqlite (Order.prepared [⟨"id", true⟩]).items
        ((simulations .sqlite).layout.row a) ((simulations .sqlite).layout.row b) :=
  pages_exact sqlite (simulations .sqlite) twoDefinitions manyDevices_known (by decide +kernel)
    (by decide) (by decide)

end Pages

/-! ## Iterate -/

section Iterate

variable {R σ : Type} (F : σ → R → Reply × σ)

/-- The loop of `Iterate`, where `get` is what `GetRecords` answers for a batch at an offset. -/
def iterateBatches (get : UInt64 → Option (List R)) :
    Nat → UInt64 → σ → Option (Bool × σ × List R)
  | 0, _, _ => none
  | fuel + 1, offset, st =>
    match get offset with
    | none => some (true, st, [])
    | some records =>
      match eachRecord F st records with
      | (st, calls, .stop) => some (true, st, calls)
      | (st, calls, .throws) => some (false, st, calls)
      | (st, calls, .goOn) =>
        if records.length < 50 then some (true, st, calls)
        else (iterateBatches get fuel (offset + 50) st).map fun r => (r.1, r.2.1, calls ++ r.2.2)

def iterateRecords (d : Dialect Slot) (m : Mapping R) (t : Sql.Table Slot)
    (served : UInt64 → Bool) (condition : String) (fuel : Nat) (st : σ) :
    Option (Bool × σ × List R) :=
  iterateBatches F (fun offset => getRecords d m t (served offset) offset 50 condition "") fuel 0 st

theorem toNat_batch {i : Nat} (h : 50 * i < 2 ^ 64) : (UInt64.ofNat (50 * i)).toNat = 50 * i :=
  UInt64.toNat_ofNat_of_lt' h

theorem iterateBatches_eq {get : UInt64 → Option (List R)} {t : Table R} {n : Nat}
    (hrows : t.rows.length ≤ 50 * n)
    (hget : ∀ i < n, get (.ofNat (50 * i)) = t.getRecords (.ofNat (50 * i)) 50)
    (hlast : t.rows.length = 50 * n → get (.ofNat (50 * n)) = none) {i : Nat}
    (hi : 50 * i ≤ t.rows.length) (fuel : Nat) (st : σ) :
    iterateBatches F get fuel (.ofNat (50 * i)) st =
      iterateFrom F t fuel (.ofNat (50 * i)) st := by
  induction fuel generalizing i st with
  | zero => rfl
  | succ fuel ih =>
    have hoffset := toNat_batch (Nat.lt_of_le_of_lt hi t.size_lt)
    have hsame : get (.ofNat (50 * i)) = t.getRecords (.ofNat (50 * i)) 50 := by
      by_cases hn : i < n
      · exact hget i hn
      · obtain rfl : i = n := by omega
        have hlength : t.rows.length = 50 * i := by omega
        rw [hlast hlength, getRecords_eq, hoffset, if_pos (List.drop_eq_nil_of_le hlength.le)]
    rw [iterateBatches, iterateFrom, hsame]
    cases hbatch : t.getRecords (.ofNat (50 * i)) 50 with
    | none => rfl
    | some batch =>
      simp only
      obtain ⟨st', calls, reply⟩ := eachRecord F st batch
      cases reply with
      | stop | throws => rfl
      | goOn =>
        by_cases hshort : batch.length < 50
        · simp only [if_pos hshort]
        · rw [getRecords_eq] at hbatch
          split at hbatch
          · cases hbatch
          · obtain rfl := Option.some.inj hbatch
            obtain ⟨-, hle⟩ := toNat_next t (Nat.le_of_not_lt hshort)
            rw [hoffset, ← Nat.mul_succ] at hle
            have hnext : UInt64.ofNat (50 * i) + 50 = .ofNat (50 * (i + 1)) := by
              rw [Nat.mul_succ, UInt64.ofNat_add]
              rfl
            simp only [if_neg hshort, hnext, ih (i := i + 1) hle]

section Chosen

variable (d : Dialect Slot) (m : Mapping R) (s : Store m.layout.keyOf) {w : Where}

theorem length_records (w : Where) :
    (records d m s w (.prepared []) none).length ≤ s.records.length := by
  have hperm := (records_perm d m s w (.prepared [])).length_eq
  rw [List.length_map] at hperm
  exact hperm.trans_le (List.length_filter_le _ _)

/-- The records of the batches before the `n`-th. -/
def batches (w : Where) (n : Nat) (h : s.records.length < 2 ^ 64) : Table R where
  rows := (records d m s w (.prepared []) none).take (50 * n)
  size_lt := by
    have hle := length_records d m s w
    rw [List.length_take]
    omega

theorem getRecords_batches (hw : w.Known m.db) (hsize : s.records.length < 2 ^ 64) {served : Bool}
    (hserved : served = true) {i n : Nat} (hi : i < n) (hlt : 50 * i < 2 ^ 64) :
    getRecords d m (m.layout.table s) served (.ofNat (50 * i)) 50 w.text "" =
      (batches d m s w n hsize).getRecords (.ofNat (50 * i)) 50 := by
  have htable := getRecords_table d m s served (o := .prepared []) hw (List.forall_mem_nil _)
    (.ofNat (50 * i)) 50
  have hnone : Order.text (.prepared []) = "" := rfl
  have hbatch : (50 : UInt64).toNat = 50 := rfl
  rw [hnone] at htable
  rw [htable, hserved, records_range, toNat_batch hlt, hbatch, Table.getRecords, toNat_batch hlt,
    hbatch, batches, List.drop_take, List.take_take, Nat.min_eq_left (by omega)]
  cases ((records d m s w (.prepared []) none).drop (50 * i)).take 50 <;> rfl

theorem getRecords_last (hw : w.Known m.db) (hsize : s.records.length < 2 ^ 64)
    {served : Bool} {n : Nat}
    (hn : (records d m s w (.prepared []) none).length ≤ 50 * n ∨ served = false)
    (hlength : (batches d m s w n hsize).rows.length = 50 * n) :
    getRecords d m (m.layout.table s) served (.ofNat (50 * n)) 50 w.text "" = none := by
  rcases hn with hn | rfl
  · have htable := getRecords_table d m s served (o := .prepared []) hw (List.forall_mem_nil _)
      (.ofNat (50 * n)) 50
    have hnone : Order.text (.prepared []) = "" := rfl
    have hlt : 50 * n < 2 ^ 64 := hlength ▸ (batches d m s w n hsize).size_lt
    rw [hnone, records_range, toNat_batch hlt, List.drop_eq_nil_of_le hn] at htable
    rw [htable, List.take_nil]
    cases served <;> rfl
  · rfl

theorem iterateRecords_eq (hw : w.Known m.db) (hsize : s.records.length < 2 ^ 64)
    {served : UInt64 → Bool} {n : Nat}
    (hbefore : ∀ i < n, 50 * i < s.records.length ∧ served (.ofNat (50 * i)) = true)
    (hn : (records d m s w (.prepared []) none).length ≤ 50 * n ∨ served (.ofNat (50 * n)) = false)
    {fuel : Nat} (hfuel : s.records.length / 50 < fuel) (st : σ) :
    iterateRecords F d m (m.layout.table s) served w.text fuel st =
      some (outcome (eachRecord F st ((records d m s w (.prepared []) none).take (50 * n)))) := by
  have hrows : (batches d m s w n hsize).rows.length ≤ s.records.length :=
    (List.length_take_le' _ _).trans (length_records d m s w)
  have hget : ∀ i < n, getRecords d m (m.layout.table s) (served (.ofNat (50 * i)))
      (.ofNat (50 * i)) 50 w.text "" =
        (batches d m s w n hsize).getRecords (.ofNat (50 * i)) 50 := fun i hi =>
    getRecords_batches d m s hw hsize (hbefore i hi).2 hi ((hbefore i hi).1.trans hsize)
  have hzero : 50 * 0 ≤ (batches d m s w n hsize).rows.length := Nat.zero_le _
  have hsame : iterateBatches F
      (fun offset => getRecords d m (m.layout.table s) (served offset) offset 50 w.text "") fuel
      (.ofNat (50 * 0)) st = iterateFrom F (batches d m s w n hsize) fuel (.ofNat (50 * 0)) st :=
    iterateBatches_eq F (List.length_take_le _ _) hget (getRecords_last d m s hw hsize hn) hzero
      fuel st
  have hfull : iterateFrom F (batches d m s w n hsize) fuel 0 st =
      some (outcome (eachRecord F st ((batches d m s w n hsize).rows.drop 0))) :=
    iterateFrom_eq _ (Nat.zero_le _) (by simp; omega) st
  exact hsame.trans hfull

theorem outcome_ok (st : σ) (rows : List R) : (outcome (eachRecord F st rows)).1 = true ↔
    (replies F st (eachRecord F st rows).2.1).getLast? ≠ some .throws := by
  rw [outcome, decide_eq_true_iff, ← last_eachRecord, not_iff_not]
  cases (replies F st (eachRecord F st rows).2.1).getLast? with
  | none => simp
  | some reply => simp

/-- The callback is given the records that the condition chooses, in batches, each once, up to the
first that it does not go on from. A batch that fails ends this as the last batch does. -/
theorem iterate_chosen (hw : w.Known m.db) (hsize : s.records.length < 2 ^ 64)
    (served : UInt64 → Bool) (st : σ) :
    ∃ n ok st' calls, (∀ i < n, served (.ofNat (50 * i)) = true) ∧
      ((records d m s w (.prepared []) none).length ≤ 50 * n ∨
        served (.ofNat (50 * n)) = false) ∧
      (∀ fuel, s.records.length / 50 < fuel →
        iterateRecords F d m (m.layout.table s) served w.text fuel st = some (ok, st', calls)) ∧
      Visits F st ((records d m s w (.prepared []) none).take (50 * n)) calls ∧
      (ok = true ↔ (replies F st calls).getLast? ≠ some .throws) := by
  have hexists : ∃ n, (records d m s w (.prepared []) none).length ≤ 50 * n ∨
      served (.ofNat (50 * n)) = false := ⟨_, .inl (Nat.le_mul_of_pos_left _ (by decide))⟩
  obtain ⟨n, hn, hbefore⟩ : ∃ n, ((records d m s w (.prepared []) none).length ≤ 50 * n ∨
      served (.ofNat (50 * n)) = false) ∧ ∀ i < n, 50 * i < s.records.length ∧
        served (.ofNat (50 * i)) = true := by
    refine ⟨Nat.find hexists, Nat.find_spec hexists, fun i hi => ?_⟩
    obtain ⟨hlength, hserved⟩ := not_or.mp (Nat.find_min hexists hi)
    have hle := length_records d m s w
    exact ⟨by omega, by simpa using hserved⟩
  exact ⟨n, _, _, _, fun i hi => (hbefore i hi).2, hn,
    fun fuel hfuel => iterateRecords_eq F d m s hw hsize hbefore hn hfuel st,
    visits_eachRecord st _, outcome_ok F st _⟩

abbrev counting (n : Nat) (_ : SimulationDetails) : Reply × Nat := (.goOn, n + 1)

abbrev firstBatch (offset : UInt64) : Bool := offset == 0

theorem iterate_chosen_two :
    ∃ n ok st' calls, (∀ i < n, firstBatch (.ofNat (50 * i)) = true) ∧
      ((records sqlite (simulations .sqlite) twoDefinitions manyDevices
          (.prepared []) none).length ≤ 50 * n ∨ firstBatch (.ofNat (50 * n)) = false) ∧
      (∀ fuel, twoDefinitions.records.length / 50 < fuel →
        iterateRecords counting sqlite (simulations .sqlite)
            ((simulations .sqlite).layout.table twoDefinitions) firstBatch manyDevices.text fuel 0 =
          some (ok, st', calls)) ∧
      Visits counting 0 ((records sqlite (simulations .sqlite) twoDefinitions manyDevices
        (.prepared []) none).take (50 * n)) calls ∧
      (ok = true ↔ (replies counting 0 calls).getLast? ≠ some .throws) :=
  iterate_chosen counting sqlite (simulations .sqlite) twoDefinitions manyDevices_known (by decide)
    firstBatch 0

end Chosen

end Iterate

end Owls.ORM
