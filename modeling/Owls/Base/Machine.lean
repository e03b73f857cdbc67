import Mathlib.Data.List.Infix

/-!
# Runs of a machine

A machine is a partial step function: `step s e` is the state after the event `e`, and
`none` when `e` cannot happen in `s`. The rules below carry an invariant from one step to
a whole run, also when it only holds as long as each step keeps to a guard.
-/

namespace Machine

variable {σ ε : Type*} (step : σ → ε → Option σ)

/-! ## Runs -/

def run : σ → List ε → Option σ
  | s, [] => some s
  | s, e :: es => (step s e).bind fun t => run t es

/-- `I` holds in every state that the run passes, the first one included. -/
def Always (I : σ → Prop) (s : σ) (es : List ε) : Prop :=
  ∀ p, p <+: es → ∀ t, run step s p = some t → I t

/-- Every step that the run takes meets `G`, on the state before it and its event. -/
def Steps (G : σ → ε → Prop) (s : σ) (es : List ε) : Prop :=
  ∀ p e, p ++ [e] <+: es → ∀ t u, run step s p = some t → step t e = some u → G t e

/-- Some step of the run is as `P` says: from its state, by its event, to its state. -/
def Happens (P : σ → ε → σ → Prop) (s : σ) (es : List ε) : Prop :=
  ∃ p e t u, p ++ [e] <+: es ∧ run step s p = some t ∧ step t e = some u ∧ P t e u

@[simp] theorem run_nil (s : σ) : run step s [] = some s := rfl

@[simp] theorem run_cons (s : σ) (e : ε) (es : List ε) :
    run step s (e :: es) = (step s e).bind fun t => run step t es := rfl

theorem run_append (s : σ) (es fs : List ε) :
    run step s (es ++ fs) = (run step s es).bind fun t => run step t fs := by
  induction es generalizing s with
  | nil => simp
  | cons e es ih => simp [ih, Option.bind_assoc]

theorem run_snoc (s : σ) (es : List ε) (e : ε) :
    run step s (es ++ [e]) = (run step s es).bind fun t => step t e := by
  rw [run_append]
  congr 1
  funext t
  cases h : step t e <;> simp [h]

variable {step}

theorem run_snoc_inv {s u : σ} {es : List ε} {e : ε} (h : run step s (es ++ [e]) = some u) :
    ∃ t, run step s es = some t ∧ step t e = some u := by
  rw [run_snoc] at h
  exact Option.bind_eq_some_iff.mp h

theorem Always.here {I : σ → Prop} {s t : σ} {es : List ε} (h : Always step I s es)
    (ht : run step s es = some t) : I t := h es (List.prefix_refl es) t ht

theorem Always.imp {I F : σ → Prop} {s : σ} {es : List ε} (h : Always step I s es)
    (hIF : ∀ t, I t → F t) : Always step F s es := fun p hp t ht => hIF t (h p hp t ht)

theorem steps_congr {G H : σ → ε → Prop} {s : σ} {es : List ε} (h : ∀ t e, G t e ↔ H t e) :
    Steps step G s es ↔ Steps step H s es := by
  simp only [Steps, h]

theorem Steps.of_prefix {G : σ → ε → Prop} {s : σ} {es fs : List ε} (h : Steps step G s es)
    (hp : fs <+: es) : Steps step G s fs :=
  fun p e hpe => h p e (hpe.trans hp)

theorem Steps.last {G : σ → ε → Prop} {s t u : σ} {es : List ε} {e : ε}
    (h : Steps step G s (es ++ [e])) (ht : run step s es = some t) (hu : step t e = some u) :
    G t e := h es e (List.prefix_refl _) t u ht hu

theorem Steps.of_suffix {G : σ → ε → Prop} {s t : σ} {es fs : List ε}
    (h : Steps step G s (es ++ fs)) (ht : run step s es = some t) : Steps step G t fs := by
  intro p e hp t' u ht' hu
  refine h (es ++ p) e ?_ t' u (by rw [run_append, ht]; exact ht') hu
  rw [List.append_assoc]
  exact (List.prefix_append_right_inj es).mpr hp

theorem steps_nil (G : σ → ε → Prop) (s : σ) : Steps step G s [] := by
  intro p e hp
  cases p <;> cases List.prefix_nil.mp hp

theorem steps_cons {G : σ → ε → Prop} {s : σ} {e : ε} {es : List ε} :
    Steps step G s (e :: es) ↔ ∀ t, step s e = some t → G s e ∧ Steps step G t es := by
  constructor
  · intro h t ht
    refine ⟨h [] e (by simp) s t rfl ht, fun p e' hp t' u ht' hu => ?_⟩
    refine h (e :: p) e' ((List.prefix_cons_inj e).mpr hp) t' u ?_ hu
    rw [run_cons, ht]
    exact ht'
  · intro h p e' hp t' u ht' hu
    cases p with
    | nil =>
      obtain rfl : e' = e := List.singleton_prefix_cons_iff.mp hp
      cases ht'
      exact (h u hu).1
    | cons e₁ p =>
      obtain ⟨rfl, htail⟩ := List.cons_prefix_cons.mp hp
      obtain ⟨t, ht, ht'⟩ := Option.bind_eq_some_iff.mp ht'
      exact (h t ht).2 p e' htail t' u ht' hu

theorem not_happens_nil (P : σ → ε → σ → Prop) (s : σ) : ¬ Happens step P s [] := by
  rintro ⟨p, e, t, u, hp, -⟩
  cases p <;> cases List.prefix_nil.mp hp

theorem happens_cons {P : σ → ε → σ → Prop} {s t : σ} {e : ε} {es : List ε}
    (ht : step s e = some t) : Happens step P s (e :: es) ↔ P s e t ∨ Happens step P t es := by
  constructor
  · rintro ⟨p, e', t', u', hp, ht', hu', hP⟩
    cases p with
    | nil =>
      obtain rfl : e' = e := List.singleton_prefix_cons_iff.mp hp
      cases ht'
      cases ht.symm.trans hu'
      exact .inl hP
    | cons e₁ p =>
      obtain ⟨rfl, htail⟩ := List.cons_prefix_cons.mp hp
      rw [run_cons, ht] at ht'
      exact .inr ⟨p, e', t', u', htail, ht', hu', hP⟩
  · rintro (hP | ⟨p, e', t', u', hp, ht', hu', hP⟩)
    · exact ⟨[], e, s, t, by simp, rfl, ht, hP⟩
    · refine ⟨e :: p, e', t', u', (List.prefix_cons_inj e).mpr hp, ?_, hu', hP⟩
      rw [run_cons, ht]
      exact ht'

theorem Happens.mono {P : σ → ε → σ → Prop} {s : σ} {es fs : List ε} (h : Happens step P s es)
    (hp : es <+: fs) : Happens step P s fs := by
  obtain ⟨p, e, t, u, hpe, ht, hu, hP⟩ := h
  exact ⟨p, e, t, u, hpe.trans hp, ht, hu, hP⟩

theorem Happens.imp {P Q : σ → ε → σ → Prop} {s : σ} {es : List ε} (h : Happens step P s es)
    (hPQ : ∀ t e u, P t e u → Q t e u) : Happens step Q s es := by
  obtain ⟨p, e, t, u, hpe, ht, hu, hP⟩ := h
  exact ⟨p, e, t, u, hpe, ht, hu, hPQ t e u hP⟩

theorem happens_snoc {P : σ → ε → σ → Prop} {s t u : σ} {es : List ε} {e : ε}
    (ht : run step s es = some t) (hu : step t e = some u) :
    Happens step P s (es ++ [e]) ↔ Happens step P s es ∨ P t e u := by
  constructor
  · rintro ⟨p, e', t', u', hpe, ht', hu', hP⟩
    rcases List.prefix_concat_iff.mp hpe with heq | hpe
    · obtain ⟨rfl, rfl⟩ := List.append_singleton_inj.mp heq
      cases ht.symm.trans ht'
      cases hu.symm.trans hu'
      exact .inr hP
    · exact .inl ⟨p, e', t', u', hpe, ht', hu', hP⟩
  · rintro (h | hP)
    · exact h.mono (List.prefix_append es [e])
    · exact ⟨es, e, t, u, List.prefix_refl _, ht, hu, hP⟩

/-! ## Invariants -/

/-- A property carried along a run, each step with the run that led to it. -/
theorem always_of_prefix {I : σ → Prop} {s : σ} {es : List ε} (h0 : I s)
    (hstep : ∀ p e, p ++ [e] <+: es → ∀ t u, run step s p = some t → step t e = some u →
      I t → I u) : Always step I s es := by
  intro p hp t ht
  induction p using List.reverseRecOn generalizing t with
  | nil => simpa using (Option.some.inj ht) ▸ h0
  | append_singleton p e ih =>
    obtain ⟨t', ht', he⟩ := run_snoc_inv ht
    have hp' : p <+: es := (List.prefix_append p [e]).trans hp
    exact hstep p e hp t' t ht' he (ih hp' t' ht')

theorem always_of_step {I : σ → Prop} {s : σ} (h0 : I s)
    (hstep : ∀ t e u, I t → step t e = some u → I u) (es : List ε) : Always step I s es :=
  always_of_prefix h0 fun _ e _ t u _ hu hI => hstep t e u hI hu

/-- Guards that agree wherever an invariant holds. -/
theorem steps_congr_of {J : σ → Prop} {G H : σ → ε → Prop} {s : σ} (hJ0 : J s)
    (hJ : ∀ t e u, J t → step t e = some u → J u) (h : ∀ t e, J t → (G t e ↔ H t e))
    (es : List ε) : Steps step G s es ↔ Steps step H s es := by
  have hJs := always_of_step hJ0 hJ es
  have hpre {p : List ε} {e : ε} (hp : p ++ [e] <+: es) : p <+: es :=
    (List.prefix_append p [e]).trans hp
  constructor
  · exact fun hG p e hp t u ht hu => (h t e (hJs p (hpre hp) t ht)).mp (hG p e hp t u ht hu)
  · exact fun hH p e hp t u ht hu => (h t e (hJs p (hpre hp) t ht)).mpr (hH p e hp t u ht hu)

/-- **Guarded invariants.** `J` holds throughout. A step from a state with `I` that meets the
guard `G` leads to a state with `I`. Then every run whose steps meet `G` keeps `I`. -/
theorem always_of_guard {J I : σ → Prop} {G : σ → ε → Prop} {s : σ} (hJ0 : J s) (h0 : I s)
    (hJ : ∀ t e u, J t → step t e = some u → J u)
    (hstep : ∀ t e u, J t → I t → G t e → step t e = some u → I u) {es : List ε}
    (hG : Steps step G s es) : Always step I s es := by
  have hJs := always_of_step hJ0 hJ es
  refine always_of_prefix h0 fun p e hp t u ht hu hI => ?_
  have hp' : p <+: es := (List.prefix_append p [e]).trans hp
  exact hstep t e u (hJs p hp' t ht) hI (hG p e hp t u ht hu) hu

/-- **Exact guards.** `F` is what an observer sees of `I`. Where a step that leads to a state
with `F` must have met the guard, and must lead to `I`, the runs that show `F` throughout are
exactly the runs whose steps meet the guard. -/
theorem always_iff_steps {J I F : σ → Prop} {G : σ → ε → Prop} {s : σ} (hJ0 : J s) (h0 : I s)
    (hJ : ∀ t e u, J t → step t e = some u → J u) (hIF : ∀ t, I t → F t)
    (hstep : ∀ t e u, J t → I t → G t e → step t e = some u → I u)
    (hback : ∀ t e u, J t → I t → step t e = some u → F u → G t e) (es : List ε) :
    Always step F s es ↔ Steps step G s es := by
  constructor
  · intro hF
    have hJs := always_of_step hJ0 hJ es
    -- Along the run `I` holds as well: each step that shows `F` has met the guard.
    have hI : Always step I s es := by
      refine always_of_prefix h0 fun p e hp t u ht hu hIt => ?_
      have hJt := hJs p ((List.prefix_append p [e]).trans hp) t ht
      have hFu := hF _ hp u (by rw [run_snoc, ht]; exact hu)
      exact hstep t e u hJt hIt (hback t e u hJt hIt hu hFu) hu
    intro p e hp t u ht he
    have hp' : p <+: es := (List.prefix_append p [e]).trans hp
    have hu : run step s (p ++ [e]) = some u := by rw [run_snoc, ht]; exact he
    exact hback t e u (hJs p hp' t ht) (hI p hp' t ht) he (hF _ hp u hu)
  · exact fun hG => (always_of_guard hJ0 h0 hJ hstep hG).imp hIF

/-! ## History -/

section History

variable {τ : Type*} {traced : τ → ε → Option τ} {π : τ → σ}

/-- A machine that records more of its runs, and does the same. -/
theorem run_erase (h : ∀ t e, (traced t e).map π = step (π t) e) (t : τ) (es : List ε) :
    (run traced t es).map π = run step (π t) es := by
  induction es generalizing t with
  | nil => rfl
  | cons e es ih =>
    rw [run_cons, run_cons, ← h t e, Option.map_bind, Option.bind_map]
    congr 1
    funext u
    exact ih u

theorem Steps.erase (h : ∀ t e, (traced t e).map π = step (π t) e) {G : σ → ε → Prop} {t : τ}
    {es : List ε} (hG : Steps traced (fun t e => G (π t) e) t es) : Steps step G (π t) es := by
  intro p e hp s u hs hu
  rw [← run_erase h] at hs
  obtain ⟨t', ht', rfl⟩ := Option.map_eq_some_iff.mp hs
  rw [← h] at hu
  obtain ⟨u', hu', -⟩ := Option.map_eq_some_iff.mp hu
  exact hG p e hp t' u' ht' hu'

end History

/-! ## Bounded runs -/

/-- **Potential.** A step of the machine's `own` takes from the potential `m`, and any other step
adds at most `c` to it. Then the number of the own steps is bounded by the other ones. -/
theorem countP_own_le {J : σ → Prop} {G : ε → Prop} {m : σ → Nat} {own : ε → Bool} {c : Nat}
    (hJ : ∀ t e u, J t → G e → step t e = some u → J u)
    (hown : ∀ t e u, J t → G e → own e → step t e = some u → m u < m t)
    (hother : ∀ t e u, J t → G e → own e = false → step t e = some u → m u ≤ m t + c)
    {s t : σ} {es : List ε} (hs : J s) (hG : ∀ e ∈ es, G e) (h : run step s es = some t) :
    es.countP own + m t ≤ m s + c * es.countP (!own ·) := by
  induction es generalizing s with
  | nil =>
    cases h
    simp
  | cons e es ih =>
    obtain ⟨u, hu, h⟩ := Option.bind_eq_some_iff.mp h
    have hGe : G e := hG e (List.mem_cons_self ..)
    have hrest := ih (hJ s e u hs hGe hu) (fun e' he' => hG e' (List.mem_cons_of_mem e he')) h
    cases he : own e with
    | true =>
      have hone := hown s e u hs hGe he hu
      simp only [List.countP_cons, he, Bool.not_true, if_true, Bool.false_eq_true, if_false,
        Nat.add_zero]
      omega
    | false =>
      have hone := hother s e u hs hGe he hu
      simp only [List.countP_cons, he, Bool.not_false, if_true, Bool.false_eq_true, if_false,
        Nat.mul_add]
      omega

end Machine
