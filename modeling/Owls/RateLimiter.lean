import Mathlib.Algebra.Group.Nat.Defs
import Mathlib.Data.List.Induction
import Mathlib.Logic.Function.Basic
import Owls.Base.Windows

/-!
# The rate limiter

`RESTAPI_RateLimiter`: a cache with the beginning and the count of the calls of a client, by the hash
of the path and the address of the request.
-/

open Windows

namespace Owls.RateLimiter

/-! ## The code -/

/-- A request, by the path of its URI, the host of the client's address and the time in
milliseconds. -/
structure Request where
  path : String
  address : String
  time : Int

structure ClientCacheEntry where
  start : Int := 0
  count : Int := 0
deriving DecidableEq

variable {κ : Type} [DecidableEq κ]

/-- An entry that expires or has to go is not in the model. -/
abbrev Cache (κ : Type) := κ → Option ClientCacheEntry

-- The count is an `int`.
def increment (n : Int) : Int := (n + 1).bmod (2 ^ 32)

def Request.text (r : Request) : String := r.path ++ r.address

def isRateLimited (hash : String → κ) (period maxCalls : Int) (cache : Cache κ) (r : Request) :
    Bool × Cache κ :=
  let h := hash r.text
  match cache h with
  | none => (false, Function.update cache h (some ⟨r.time, 1⟩))
  | some e =>
    if r.time - e.start < period then
      let e := { e with count := increment e.count }
      (decide (maxCalls < e.count), Function.update cache h (some e))
    else (false, Function.update cache h (some ⟨r.time, 1⟩))

def after (hash : String → κ) (period maxCalls : Int) (rs : List Request) : Cache κ :=
  rs.foldl (fun cache r => (isRateLimited hash period maxCalls cache r).2) fun _ => none

/-! ## What is to be limited -/

def Request.same (p r : Request) : Bool := p.path == r.path && p.address == r.address

def times (select : Request → Bool) (rs : List Request) : List Int := (rs.filter select).map (·.time)

/-- The calls of a pair in the window of a request, with the request as the last. -/
def currentCalls (period : Int) (past : List Request) (r : Request) : List Int :=
  window period (times (·.same r) past ++ [r.time])

/-- The pair has already made so many requests since its window began. -/
def Exceeded (period maxCalls : Int) (past : List Request) (r : Request) : Prop :=
  maxCalls ≤ ((currentCalls period past r).dropLast.length : Int)

/-! ## The entry of a key -/

def entryOf : List Int → Option ClientCacheEntry
  | [] => none
  | start :: ts => some ⟨start, Int.bmod (ts.length + 1) (2 ^ 32)⟩

variable {hash : String → κ} {period maxCalls : Int} {cache : Cache κ} {r : Request}
  {past : List Request}

theorem increment_bmod (n : Int) : increment (n.bmod (2 ^ 32)) = (n + 1).bmod (2 ^ 32) := by
  rw [increment, Int.bmod_add_bmod]

theorem entryOf_concat (start : Int) (ts : List Int) (t : Int) :
    entryOf (start :: ts ++ [t]) =
      some ⟨start, increment (Int.bmod (ts.length + 1) (2 ^ 32))⟩ := by
  rw [increment_bmod, List.cons_append, entryOf, List.length_append, List.length_singleton,
    Int.natCast_add, Int.natCast_one]

/-! ### One request -/

theorem isRateLimited_first (h : cache (hash r.text) = none) :
    isRateLimited hash period maxCalls cache r =
      (false, Function.update cache (hash r.text) (some ⟨r.time, 1⟩)) := by
  rw [isRateLimited, h]

theorem isRateLimited_again {e : ClientCacheEntry} (h : cache (hash r.text) = some e)
    (hin : r.time - e.start < period) :
    isRateLimited hash period maxCalls cache r = (decide (maxCalls < increment e.count),
      Function.update cache (hash r.text) (some ⟨e.start, increment e.count⟩)) := by
  rw [isRateLimited, h]
  exact if_pos hin

theorem isRateLimited_later {e : ClientCacheEntry} (h : cache (hash r.text) = some e)
    (hout : ¬ r.time - e.start < period) :
    isRateLimited hash period maxCalls cache r =
      (false, Function.update cache (hash r.text) (some ⟨r.time, 1⟩)) := by
  rw [isRateLimited, h]
  exact if_neg hout

theorem isRateLimited_entry {w : List Int} (h : cache (hash r.text) = entryOf w) :
    (isRateLimited hash period maxCalls cache r).2 =
        Function.update cache (hash r.text) (entryOf (extend period w r.time)) ∧
      ((isRateLimited hash period maxCalls cache r).1 = true ↔
        2 ≤ (extend period w r.time).length ∧
          maxCalls < Int.bmod (extend period w r.time).length (2 ^ 32)) := by
  cases w with
  | nil =>
    rw [isRateLimited_first h]
    exact ⟨rfl, by simp [extend]⟩
  | cons start ts =>
    by_cases hold : start + period ≤ r.time
    · have hextend : extend period (start :: ts) r.time = [r.time] := if_pos hold
      rw [isRateLimited_later h (by dsimp only; omega), hextend]
      exact ⟨rfl, by simp⟩
    · have hextend : extend period (start :: ts) r.time = start :: ts ++ [r.time] := if_neg hold
      have hlength : ((start :: ts ++ [r.time]).length : Int) = ts.length + 1 + 1 := by simp
      have htwo : 2 ≤ (start :: ts ++ [r.time]).length := by simp
      rw [isRateLimited_again h (by dsimp only; omega), hextend, entryOf_concat, hlength,
        ← increment_bmod (ts.length + 1), and_iff_right htwo, decide_eq_true_eq]
      dsimp only
      exact ⟨rfl, Iff.rfl⟩

/-! ### Every request -/

theorem times_concat (select : Request → Bool) (past : List Request) (p : Request) :
    times select (past ++ [p]) =
      if select p then times select past ++ [p.time] else times select past := by
  rw [times, List.filter_append, List.map_append]
  cases hp : select p <;> simp [times, hp]

theorem after_concat (past : List Request) (p : Request) :
    after hash period maxCalls (past ++ [p]) =
      (isRateLimited hash period maxCalls (after hash period maxCalls past) p).2 := by
  rw [after, List.foldl_append]
  rfl

theorem after_entry (past : List Request) (k : κ) :
    after hash period maxCalls past k =
      entryOf (window period (times (fun p => hash p.text = k) past)) := by
  induction past using List.reverseRecOn generalizing k with
  | nil => rfl
  | append_singleton past p ih =>
    rw [after_concat, (isRateLimited_entry (ih _)).1, times_concat]
    by_cases hk : hash p.text = k
    · rw [if_pos (decide_eq_true hk), window_concat, ← hk, Function.update_self]
    · rw [if_neg (by simpa using hk), Function.update_of_ne (Ne.symm hk)]
      exact ih k

/-! ## The pairs that share a key -/

/-- No earlier request of another pair has the same text. -/
def Apart (past : List Request) (r : Request) : Prop :=
  ∀ p ∈ past, p.text = r.text → p.same r = true

theorem Request.text_eq_of_same {p r : Request} (h : p.same r = true) : p.text = r.text := by
  obtain ⟨hpath, haddress⟩ : p.path = r.path ∧ p.address = r.address := by
    simpa [Request.same] using h
  rw [Request.text, Request.text, hpath, haddress]

theorem times_key (hhash : Function.Injective hash) (hapart : Apart past r) :
    times (fun p => hash p.text = hash r.text) past = times (·.same r) past := by
  rw [times, times]
  congr 1
  refine List.filter_congr fun p hp => ?_
  rw [Bool.eq_iff_iff, decide_eq_true_eq, hhash.eq_iff]
  exact ⟨hapart p hp, Request.text_eq_of_same⟩

theorem isRateLimited_window (hhash : Function.Injective hash) (hapart : Apart past r) :
    (isRateLimited hash period maxCalls (after hash period maxCalls past) r).1 = true ↔
      2 ≤ (currentCalls period past r).length ∧
        maxCalls < Int.bmod (currentCalls period past r).length (2 ^ 32) := by
  have hentry : after hash period maxCalls past (hash r.text) =
      entryOf (window period (times (·.same r) past)) := by
    rw [after_entry, times_key hhash hapart]
  rw [currentCalls, window_concat]
  exact (isRateLimited_entry hentry).2

/-- The answer is the one that is due, for a run without two pairs of one text. -/
theorem isRateLimited_iff_exceeded (hash : String → κ) (hhash : Function.Injective hash)
    (period maxCalls : Int) (hcalls : 1 ≤ maxCalls) (past : List Request) (r : Request)
    (hapart : Apart past r) (hcount : (currentCalls period past r).length < 2 ^ 31) :
    (isRateLimited hash period maxCalls (after hash period maxCalls past) r).1 = true ↔
      Exceeded period maxCalls past r := by
  have hbmod : Int.bmod (currentCalls period past r).length (2 ^ 32) =
      (currentCalls period past r).length := Int.bmod_eq_of_le (by omega) (by omega)
  rw [isRateLimited_window hhash hapart, hbmod, Exceeded, List.length_dropLast]
  omega

theorem isRateLimited_iff_exceeded_second :
    (isRateLimited id 1000 1 (after id 1000 1 [⟨"/api/v1/system", "1.2.3.4", 0⟩])
        ⟨"/api/v1/system", "1.2.3.4", 999⟩).1 = true ↔
      Exceeded 1000 1 [⟨"/api/v1/system", "1.2.3.4", 0⟩] ⟨"/api/v1/system", "1.2.3.4", 999⟩ :=
  isRateLimited_iff_exceeded id Function.injective_id 1000 1 (by decide) _ _
    (by unfold Apart; decide +kernel) (by decide +kernel)

/-! ## Two pairs of one text -/

/-- The path ends where the address of the other client begins. -/
theorem addresses_share_entry :
    ¬ ∀ (hash : String → String) (period maxCalls : Int) (past : List Request) (r : Request),
      Function.Injective hash → 1 ≤ maxCalls → ((past ++ [r]).map (·.time)).Pairwise (· ≤ ·) →
        ((isRateLimited hash period maxCalls (after hash period maxCalls past) r).1 = true ↔
          Exceeded period maxCalls past r) := by
  intro h
  have hanswer := h id 1000 1 [⟨"/api/v1/simulation/1", "1.2.3.4", 0⟩]
    ⟨"/api/v1/simulation/", "11.2.3.4", 0⟩ Function.injective_id (by decide) (by decide)
  revert hanswer
  unfold Exceeded
  decide +kernel

end Owls.RateLimiter
