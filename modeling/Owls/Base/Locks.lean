import Mathlib.Logic.Relation
import Mathlib.Order.BooleanAlgebra.Set

/-!
# Threads that lock

Threads take locks, wait for each other to end, and read shared flags. A thread waits for the
one that holds its lock, or that it joins, and a deadlock is a cycle of such waits.
-/

namespace Locks

variable {T L F : Type*}

/-! ## Programs -/

inductive Prog (T L F : Type*) where
  | done
  | lock (l : L) (next : Prog T L F)
  | unlock (l : L) (next : Prog T L F)
  | tryLock (l : L) (got missed : Prog T L F)
  /-- Asks a thread to end when its program is done. -/
  | halt (t : T) (next : Prog T L F)
  /-- Waits for a thread to end. -/
  | join (t : T) (next : Prog T L F)
  | test (f : F) (yes no : Prog T L F)
  | clear (f : F) (next : Prog T L F)

/-- `P` holds at every point of the program, of the locks held there and of what is to come. -/
def Prog.All (P : Set L → Prog T L F → Prop) : Set L → Prog T L F → Prop
  | held, .done => P held .done
  | held, .lock l next => P held (.lock l next) ∧ All P (insert l held) next
  | held, .unlock l next => P held (.unlock l next) ∧ All P (held \ {l}) next
  | held, .tryLock l got missed =>
    P held (.tryLock l got missed) ∧ All P (insert l held) got ∧ All P held missed
  | held, .halt t next => P held (.halt t next) ∧ All P held next
  | held, .join t next => P held (.join t next) ∧ All P held next
  | held, .test f yes no => P held (.test f yes no) ∧ All P held yes ∧ All P held no
  | held, .clear f next => P held (.clear f next) ∧ All P held next

theorem Prog.All.here {P : Set L → Prog T L F → Prop} {held : Set L} {p : Prog T L F}
    (h : p.All P held) : P held p := by
  cases p with
  | done => exact h
  | lock | unlock | tryLock | halt | join | test | clear => exact h.1

/-- The program nowhere waits for `l`. -/
def Prog.Free (l : L) : Prog T L F → Prop
  | .done => True
  | .lock l' next => l' ≠ l ∧ Free l next
  | .unlock _ next | .halt _ next | .join _ next | .clear _ next => Free l next
  | .tryLock _ got missed => Free l got ∧ Free l missed
  | .test _ yes no => Free l yes ∧ Free l no

/-- The program waits for `l` in its first step at most. -/
def Prog.FreeBeyond (l : L) (p : Prog T L F) : Prop :=
  p.Free l ∨ ∃ next, p = .lock l next ∧ next.Free l

theorem Prog.FreeBeyond.of_lock {l l' : L} {next : Prog T L F}
    (h : (Prog.lock l' next).FreeBeyond l) : next.Free l := by
  rcases h with hfree | ⟨next', hlock, hfree⟩
  · exact hfree.2
  · cases hlock
    exact hfree

theorem Prog.FreeBeyond.of_ne {l : L} {p : Prog T L F} (h : p.FreeBeyond l)
    (hne : ∀ next, p ≠ .lock l next) : p.Free l := by
  rcases h with hfree | ⟨next, hlock, -⟩
  · exact hfree
  · exact absurd hlock (hne next)

/-! ## Threads -/

structure Threads (T L F : Type*) where
  prog : T → Prog T L F
  owner : L → Option T
  flag : F → Bool
  halted : T → Bool
  gone : T → Bool

namespace Threads

def held (s : Threads T L F) (t : T) : Set L := {l | s.owner l = some t}

/-- Every thread holds its locks as its program expects, with `P` at every point to come. -/
def Guarded (P : T → Set L → Prog T L F → Prop) (s : Threads T L F) : Prop :=
  ∀ t, (s.prog t).All (P t) (s.held t)

/-- A thread that has ended has nothing left to do. -/
def Ended (s : Threads T L F) : Prop := ∀ t, s.gone t = true → s.prog t = .done

variable [DecidableEq T]

def become (s : Threads T L F) (t : T) (p : Prog T L F) : Threads T L F :=
  { s with prog := Function.update s.prog t p }

/-- An idle thread takes up a program. -/
def call (s : Threads T L F) (t : T) (p : Prog T L F) : Option (Threads T L F) :=
  match s.prog t with
  | .done => if s.gone t then none else some (s.become t p)
  | _ => none

/-- An idle thread that was asked to end does so. -/
def leave (s : Threads T L F) (t : T) : Option (Threads T L F) :=
  match s.prog t with
  | .done => if s.halted t then some { s with gone := Function.update s.gone t true } else none
  | _ => none

variable {P : T → Set L → Prog T L F → Prop} {s u : Threads T L F} {t : T} {p : Prog T L F}

/-- A step of one thread is right when it is right for that thread. -/
theorem guarded_of_self {q : Prog T L F} {h : Set L} (hs : Guarded P s)
    (hprog : u.prog = Function.update s.prog t q)
    (hheld : ∀ t', u.held t' = if t' = t then h else s.held t') (hq : q.All (P t) h) :
    Guarded P u := by
  intro t'
  rw [hprog, hheld]
  by_cases ht : t' = t
  · subst ht
    rw [Function.update_self, if_pos rfl]
    exact hq
  · rw [Function.update_of_ne ht, if_neg ht]
    exact hs t'

theorem held_same (t t' : T) : s.held t' = if t' = t then s.held t else s.held t' := by
  split
  · rename_i ht
    rw [ht]
  · rfl

theorem guarded_call (hs : Guarded P s) (hdone : ∀ h, P t h .done → h = ∅)
    (hp : p.All (P t) ∅) (h : s.call t p = some u) : Guarded P u := by
  unfold call at h
  split at h
  · rename_i hprog
    split at h <;> cases h
    have hempty : s.held t = ∅ := by
      have ht := hs t
      rw [hprog] at ht
      exact hdone _ ht
    refine guarded_of_self hs rfl (fun t' => ?_) hp
    rw [← hempty]
    exact held_same t t'
  · cases h

theorem guarded_leave (hs : Guarded P s) (h : s.leave t = some u) : Guarded P u := by
  unfold leave at h
  split at h
  · split at h <;> cases h
    exact hs
  · cases h

theorem prog_call (h : s.call t p = some u) : u = s.become t p ∧ s.gone t = false := by
  unfold call at h
  split at h
  · split at h <;> cases h
    rename_i hgone
    exact ⟨rfl, Bool.not_eq_true _ ▸ hgone⟩
  · cases h

theorem prog_leave (h : s.leave t = some u) : u.prog = s.prog := by
  unfold leave at h
  split at h
  · split at h <;> cases h
    rfl
  · cases h

theorem ended_of_self {q : Prog T L F} (hs : Ended s) (hprog : u.prog = Function.update s.prog t q)
    (hgone : u.gone = s.gone) (ht : s.gone t = false) : Ended u := by
  intro t' hgone'
  rw [hgone] at hgone'
  by_cases heq : t' = t
  · subst heq
    rw [ht] at hgone'
    cases hgone'
  · rw [hprog, Function.update_of_ne heq]
    exact hs t' hgone'

theorem ended_call (hs : Ended s) (h : s.call t p = some u) : Ended u := by
  obtain ⟨rfl, hgone⟩ := prog_call h
  exact ended_of_self hs rfl rfl hgone

theorem ended_leave (hs : Ended s) (h : s.leave t = some u) : Ended u := by
  unfold leave at h
  split at h
  · rename_i hprog
    split at h <;> cases h
    intro t' hgone
    by_cases heq : t' = t
    · subst heq
      exact hprog
    · have hold : s.gone t' = true := (Function.update_of_ne heq true s.gone).symm.trans hgone
      exact hs t' hold
  · cases h

/-! ## Steps -/

variable [DecidableEq L]

theorem held_take {l : L} (hfree : s.owner l = none) (t' : T) :
    {l' | Function.update s.owner l (some t) l' = some t'} =
      if t' = t then insert l (s.held t) else s.held t' := by
  ext l'
  simp only [Set.mem_ofPred_eq]
  by_cases hl : l' = l
  · subst hl
    rw [Function.update_self]
    split
    · rename_i ht
      simp [ht]
    · rename_i ht
      simp [held, hfree, Ne.symm ht]
  · rw [Function.update_of_ne hl]
    split
    · rename_i ht
      simp [held, hl, ht]
    · rfl

theorem held_give {l : L} (hown : s.owner l = some t) (t' : T) :
    {l' | Function.update s.owner l none l' = some t'} =
      if t' = t then s.held t \ {l} else s.held t' := by
  ext l'
  simp only [Set.mem_ofPred_eq]
  by_cases hl : l' = l
  · subst hl
    rw [Function.update_self]
    split
    · simp
    · rename_i ht
      simp [held, hown, Ne.symm ht]
  · rw [Function.update_of_ne hl]
    split
    · rename_i ht
      simp [held, hl, ht]
    · rfl

variable [DecidableEq F]

/-- The next step of a thread. `none`: it has to wait, or its program is done. -/
def advance (s : Threads T L F) (t : T) : Option (Threads T L F) :=
  match s.prog t with
  | .done => none
  | .lock l next =>
    if s.owner l = none then
      some { s.become t next with owner := Function.update s.owner l (some t) }
    else none
  | .unlock l next =>
    if s.owner l = some t then
      some { s.become t next with owner := Function.update s.owner l none }
    else none
  | .tryLock l got missed =>
    if s.owner l = none then
      some { s.become t got with owner := Function.update s.owner l (some t) }
    else some (s.become t missed)
  | .halt u next => some { s.become t next with halted := Function.update s.halted u true }
  | .join u next => if s.gone u then some (s.become t next) else none
  | .test f yes no => some (s.become t (if s.flag f then yes else no))
  | .clear f next => some { s.become t next with flag := Function.update s.flag f false }

theorem guarded_advance (hs : Guarded P s) (h : s.advance t = some u) : Guarded P u := by
  have ht := hs t
  unfold advance at h
  cases hp : s.prog t with
  | done => simp [hp] at h
  | lock l next =>
    rw [hp] at ht
    simp only [hp] at h
    split at h <;> cases h
    rename_i hfree
    exact guarded_of_self hs rfl (held_take hfree) ht.2
  | unlock l next =>
    rw [hp] at ht
    simp only [hp] at h
    split at h <;> cases h
    rename_i hown
    exact guarded_of_self hs rfl (held_give hown) ht.2
  | tryLock l got missed =>
    rw [hp] at ht
    simp only [hp] at h
    split at h <;> cases h
    · rename_i hfree
      exact guarded_of_self hs rfl (held_take hfree) ht.2.1
    · exact guarded_of_self hs rfl (held_same t) ht.2.2
  | halt t' next =>
    rw [hp] at ht
    simp only [hp] at h
    cases h
    exact guarded_of_self hs rfl (held_same t) ht.2
  | join t' next =>
    rw [hp] at ht
    simp only [hp] at h
    split at h <;> cases h
    exact guarded_of_self hs rfl (held_same t) ht.2
  | test f yes no =>
    rw [hp] at ht
    simp only [hp] at h
    cases h
    refine guarded_of_self hs rfl (held_same t) ?_
    split
    · exact ht.2.1
    · exact ht.2.2
  | clear f next =>
    rw [hp] at ht
    simp only [hp] at h
    cases h
    exact guarded_of_self hs rfl (held_same t) ht.2

theorem free_advance {l : L} (hp : (s.prog t).FreeBeyond l) (h : s.advance t = some u) :
    (u.prog t).Free l := by
  unfold advance at h
  cases hprog : s.prog t with
  | done => simp [hprog] at h
  | lock l' next =>
    rw [hprog] at hp
    simp only [hprog] at h
    split at h <;> cases h
    simpa [become] using hp.of_lock
  | tryLock l' got missed =>
    rw [hprog] at hp
    have hfree := hp.of_ne (by simp)
    simp only [hprog] at h
    split at h <;> cases h
    · simpa [become] using hfree.1
    · simpa [become] using hfree.2
  | test f yes no =>
    rw [hprog] at hp
    have hfree := hp.of_ne (by simp)
    simp only [hprog] at h
    cases h
    simp only [become, Function.update_self]
    split
    · exact hfree.1
    · exact hfree.2
  | unlock | halt | join | clear =>
    rw [hprog] at hp
    have hfree := hp.of_ne (by simp)
    simp only [hprog] at h
    try split at h
    all_goals cases h
    all_goals simp only [become, Function.update_self]
    all_goals exact hfree

theorem prog_advance (h : s.advance t = some u) :
    u.prog = Function.update s.prog t (u.prog t) ∧ u.gone = s.gone ∧ s.prog t ≠ .done := by
  unfold advance at h
  split at h
  · cases h
  all_goals rename_i hp
  all_goals try split at h
  all_goals cases h
  all_goals exact ⟨by simp [become], rfl, by simp [hp]⟩

theorem ended_advance (hs : Ended s) (h : s.advance t = some u) : Ended u := by
  obtain ⟨hprog, hgone, hne⟩ := prog_advance h
  refine ended_of_self hs hprog hgone ?_
  by_contra hnot
  exact hne (hs t (Bool.not_eq_false _ ▸ hnot))

end Threads

/-! ## Deadlocks -/

inductive Resource (T L : Type*) where
  | lock (l : L)
  /-- The end of a thread. -/
  | life (t : T)

namespace Threads

variable (s : Threads T L F)

def Wants (t : T) : Resource T L → Prop
  | .lock l => ∃ next, s.prog t = .lock l next
  | .life u => ∃ next, s.prog t = .join u next

def Holds (t : T) : Resource T L → Prop
  | .lock l => s.owner l = some t
  | .life u => u = t ∧ s.gone t = false

def Waits (t u : T) : Prop := ∃ ρ, s.Wants t ρ ∧ s.Holds u ρ

def Deadlock : Prop := ∃ t, Relation.TransGen s.Waits t t

variable {s}

theorem wants_unique {t : T} {ρ σ : Resource T L} (h : s.Wants t ρ) (h' : s.Wants t σ) :
    ρ = σ := by
  cases ρ <;> cases σ <;> obtain ⟨next, hnext⟩ := h <;> obtain ⟨next', hnext'⟩ := h' <;>
    cases hnext.symm.trans hnext' <;> rfl

/-- Where a thread that is waited for only waits for something higher, no threads wait in a
cycle. -/
theorem not_deadlock_of_rank {α : Type*} [Preorder α] (rank : Resource T L → α)
    (h : ∀ t u ρ ρ', s.Wants t ρ → s.Holds u ρ → s.Wants u ρ' → rank ρ < rank ρ') :
    ¬ s.Deadlock := by
  -- Along a path of waits the rank of what is waited for rises.
  have hrises : ∀ t u, Relation.TransGen s.Waits t u → ∀ ρ ρ', s.Wants t ρ → s.Wants u ρ' →
      rank ρ < rank ρ' := by
    intro t u hpath
    induction hpath with
    | single hwait =>
      intro ρ ρ' hρ hρ'
      obtain ⟨σ, hσ, hholds⟩ := hwait
      obtain rfl := wants_unique hρ hσ
      exact h _ _ _ _ hσ hholds hρ'
    | tail hpath hwait ih =>
      intro ρ ρ' hρ hρ'
      obtain ⟨σ, hσ, hholds⟩ := hwait
      exact (ih ρ σ hρ hσ).trans (h _ _ _ _ hσ hholds hρ')
  rintro ⟨t, hcycle⟩
  obtain ⟨u, ⟨ρ, hρ, -⟩, -⟩ := Relation.TransGen.head'_iff.mp hcycle
  exact lt_irrefl _ (hrises t t hcycle ρ ρ hρ hρ)

theorem deadlock_of_two {t u : T} (h : s.Waits t u) (h' : s.Waits u t) : s.Deadlock :=
  ⟨t, (Relation.TransGen.single h).tail h'⟩

end Threads

end Locks
