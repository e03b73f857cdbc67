/-!
# Calls that may end early

A call runs on a state. It ends with a value, by an early `return`, or with an exception, and
leaves a state in each case.
-/

namespace Exits

inductive Exit (ε α : Type) where
  | value (a : α)
  | returned
  | thrown (e : ε)

def Call (σ ε α : Type) : Type := σ → Exit ε α × σ

variable {σ ε α β : Type}

namespace Call

def bind (x : Call σ ε α) (f : α → Call σ ε β) : Call σ ε β := fun s =>
  match x s with
  | (.value a, t) => f a t
  | (.returned, t) => (.returned, t)
  | (.thrown e, t) => (.thrown e, t)

instance : Monad (Call σ ε) where
  pure a := fun s => (.value a, s)
  bind := bind

def get : Call σ ε σ := fun s => (.value s, s)

def modify (f : σ → σ) : Call σ ε Unit := fun s => (.value (), f s)

/-- The early `return` of a call that has no value to give. -/
def exit : Call σ ε α := fun s => (.returned, s)

def throw (e : ε) : Call σ ε α := fun s => (.thrown e, s)

def tryCatch (x : Call σ ε α) (handler : ε → Call σ ε α) : Call σ ε α := fun s =>
  match x s with
  | (.thrown e, t) => handler e t
  | out => out

/-- An `if` with no `else`. -/
def when (c : Prop) [Decidable c] (x : Call σ ε Unit) : Call σ ε Unit := if c then x else pure ()

end Call

/-! ## Conditions before and after -/

/-- The state after a value has `Q`, and after any other end `R`. -/
def After (Q : α → σ → Prop) (R : σ → Prop) : Exit ε α × σ → Prop
  | (.value a, t) => Q a t
  | (_, t) => R t

/-- From a state with `P`, the call ends with `Q` or, when it ends early, with `R`. -/
def Ends (P : σ → Prop) (x : Call σ ε α) (Q : α → σ → Prop) (R : σ → Prop) : Prop :=
  ∀ s, P s → After Q R (x s)

variable {P P' : σ → Prop} {Q Q' : α → σ → Prop} {R R' : σ → Prop} {x : Call σ ε α}

theorem After.mono {out : Exit ε α × σ} (h : After Q R out) (hQ : ∀ a t, Q a t → Q' a t)
    (hR : ∀ t, R t → R' t) : After Q' R' out := by
  obtain ⟨exit, t⟩ := out
  cases exit with
  | value a => exact hQ a t h
  | returned | thrown => exact hR t h

/-- However the call ends, the state has what both conditions give. -/
theorem After.always {out : Exit ε α × σ} (h : After Q R out) {I : σ → Prop}
    (hQ : ∀ a t, Q a t → I t) (hR : ∀ t, R t → I t) : I out.2 := by
  obtain ⟨exit, t⟩ := out
  cases exit with
  | value a => exact hQ a t h
  | returned | thrown => exact hR t h

theorem ends_pure {a : α} (h : ∀ s, P s → Q a s) : Ends P (pure a : Call σ ε α) Q R := h

theorem ends_exit (h : ∀ s, P s → R s) : Ends P (Call.exit : Call σ ε α) Q R := h

theorem ends_throw {e : ε} (h : ∀ s, P s → R s) : Ends P (Call.throw e : Call σ ε α) Q R := h

theorem ends_modify {f : σ → σ} {Q : Unit → σ → Prop} (h : ∀ s, P s → Q () (f s)) :
    Ends P (Call.modify f : Call σ ε Unit) Q R := h

theorem Ends.pre (h : Ends P x Q R) (hP : ∀ s, P' s → P s) : Ends P' x Q R :=
  fun s hs => h s (hP s hs)

theorem Ends.post (h : Ends P x Q R) (hQ : ∀ a t, Q a t → Q' a t) : Ends P x Q' R :=
  fun s hs => (h s hs).mono hQ fun _ ht => ht

theorem Ends.early (h : Ends P x Q R) (hR : ∀ t, R t → R' t) : Ends P x Q R' :=
  fun s hs => (h s hs).mono (fun _ _ ht => ht) hR

theorem Ends.bind {S : β → σ → Prop} {f : α → Call σ ε β} (h : Ends P x Q R)
    (hf : ∀ a, Ends (Q a) (f a) S R) : Ends P (x >>= f) S R := by
  intro s hs
  have hx : After Q R (x s) := h s hs
  show After S R (Call.bind x f s)
  unfold Call.bind
  split
  · rename_i a t heq
    rw [heq] at hx
    exact hf a t hx
  · rename_i t heq
    rw [heq] at hx
    exact hx
  · rename_i e t heq
    rw [heq] at hx
    exact hx

theorem ends_get {S : β → σ → Prop} {f : σ → Call σ ε β}
    (hf : ∀ s, P s → Ends (fun t => t = s) (f s) S R) : Ends P (Call.get >>= f) S R :=
  fun s hs => hf s hs s rfl

theorem Ends.tryCatch {handler : ε → Call σ ε α} (h : Ends P x Q R')
    (hcatch : ∀ e, Ends R' (handler e) Q R) (hreturned : ∀ s, R' s → R s) :
    Ends P (x.tryCatch handler) Q R := by
  intro s hs
  have hx : After Q R' (x s) := h s hs
  unfold Call.tryCatch
  split
  · rename_i e t heq
    rw [heq] at hx
    exact hcatch e t hx
  · exact hx.mono (fun _ _ ht => ht) hreturned

theorem ends_ite {c : Prop} [Decidable c] {y : Call σ ε α}
    (ht : Ends (fun s => c ∧ P s) x Q R) (hf : Ends (fun s => ¬ c ∧ P s) y Q R) :
    Ends P (if c then x else y) Q R := by
  intro s hs
  by_cases hc : c
  · rw [if_pos hc]
    exact ht s ⟨hc, hs⟩
  · rw [if_neg hc]
    exact hf s ⟨hc, hs⟩

theorem ends_when {c : Prop} [Decidable c] {x : Call σ ε Unit} {Q : Unit → σ → Prop}
    (ht : Ends (fun s => c ∧ P s) x Q R) (hf : ∀ s, ¬ c → P s → Q () s) :
    Ends P (Call.when c x) Q R :=
  ends_ite ht (ends_pure fun s hs => hf s hs.1 hs.2)

end Exits
