import Mathlib.Data.List.Forall2

/-!
# Programs that draw

A program draws from a source of values and may stop with an error. The rules below speak of
every source at once: whatever is drawn, the program returns, or it stops.
-/

namespace Draw

variable {σ ε α β : Type} {m : StateT σ (Except ε) α} {f : α → StateT σ (Except ε) β}
  {P : α → Prop} {Q : β → Prop} {e : ε}

/-- Whatever the source, the program returns a value with `P`. -/
def Returns (m : StateT σ (Except ε) α) (P : α → Prop) : Prop :=
  ∀ s, ∃ a t, m s = .ok (a, t) ∧ P a

/-- Whatever the source, the program stops with `e`. -/
def Stops (m : StateT σ (Except ε) α) (e : ε) : Prop := ∀ s, m s = .error e

theorem bind_ok {s t : σ} {a : α} (h : m s = .ok (a, t)) : (m >>= f) s = f a t := by
  simp only [bind, StateT.bind, h, Except.bind]

theorem bind_error {s : σ} (h : m s = .error e) : (m >>= f) s = .error e := by
  simp only [bind, StateT.bind, h, Except.bind]

theorem map_ok_iff {g : α → β} {s t : σ} {b : β} :
    (do return g (← m)) s = .ok (b, t) ↔ ∃ a, m s = .ok (a, t) ∧ g a = b := by
  cases h : m s with
  | error e =>
    rw [bind_error h]
    simp
  | ok p =>
    rw [bind_ok h]
    constructor
    · intro hpure
      cases hpure
      exact ⟨p.1, rfl, rfl⟩
    · rintro ⟨a, ha, rfl⟩
      cases ha
      rfl

theorem map_toOption_eq_some {out : Except ε (α × σ)} {g : α × σ → β} {b : β} :
    out.toOption.map g = some b ↔ ∃ a t, out = .ok (a, t) ∧ b = g (a, t) := by
  cases out with
  | error e => simp [Except.toOption]
  | ok p =>
    constructor
    · intro h
      exact ⟨p.1, p.2, rfl, (Option.some.inj h).symm⟩
    · rintro ⟨a, t, hp, rfl⟩
      cases hp
      rfl

theorem returns_pure {a : α} (h : P a) : Returns (pure a : StateT σ (Except ε) α) P :=
  fun s => ⟨a, s, rfl, h⟩

theorem Returns.mono {P' : α → Prop} (h : Returns m P) (himp : ∀ a, P a → P' a) :
    Returns m P' := by
  intro s
  obtain ⟨a, t, hm, ha⟩ := h s
  exact ⟨a, t, hm, himp a ha⟩

theorem Returns.bind (h : Returns m P) (hf : ∀ a, P a → Returns (f a) Q) :
    Returns (m >>= f) Q := by
  intro s
  obtain ⟨a, t, hm, ha⟩ := h s
  obtain ⟨b, u, hb, hQ⟩ := hf a ha t
  exact ⟨b, u, (bind_ok hm).trans hb, hQ⟩

theorem Returns.map {g : α → β} (h : Returns m P) (hg : ∀ a, P a → Q (g a)) :
    Returns (do return g (← m)) Q :=
  h.bind fun a ha => returns_pure (hg a ha)

theorem Returns.stops (h : Returns m P) (hf : ∀ a, P a → Stops (f a) e) :
    Stops (m >>= f) e := by
  intro s
  obtain ⟨a, t, hm, ha⟩ := h s
  exact (bind_ok hm).trans (hf a ha t)

theorem Stops.bind (h : Stops m e) : Stops (m >>= f) e := fun s => bind_error (h s)

theorem stops_throw : Stops (throw e : StateT σ (Except ε) α) e := fun _ => rfl

theorem returns_ofExcept {x : Except ε α} {a : α} (h : x = .ok a) :
    Returns (ofExcept x : StateT σ (Except ε) α) (· = a) := by
  rw [h]
  exact returns_pure rfl

theorem stops_ofExcept {x : Except ε α} (h : x = .error e) :
    Stops (ofExcept x : StateT σ (Except ε) α) e := by
  rw [h]
  exact stops_throw

/-! ## Errors that are allowed -/

/-- Whatever the source, the program returns a value with `P`, or stops with an error in `E`. -/
def Yields (m : StateT σ (Except ε) α) (P : α → Prop) (E : ε → Prop) : Prop :=
  ∀ s, (∃ a t, m s = .ok (a, t) ∧ P a) ∨ ∃ e, m s = .error e ∧ E e

variable {E : ε → Prop}

theorem Returns.yields (h : Returns m P) : Yields m P E := fun s => .inl (h s)

theorem returns_of_yields (h : Yields m P fun _ => False) : Returns m P := by
  intro s
  rcases h s with hok | ⟨e, -, hfalse⟩
  · exact hok
  · exact hfalse.elim

theorem yields_true : Yields m (fun _ => True) fun _ => True := by
  intro s
  cases h : m s with
  | ok out => exact .inl ⟨out.1, out.2, rfl, trivial⟩
  | error e => exact .inr ⟨e, rfl, trivial⟩

theorem Yields.of_ok {s t : σ} {a : α} (h : Yields m P E) (hm : m s = .ok (a, t)) : P a := by
  rcases h s with ⟨b, u, hb, hP⟩ | ⟨e, he, -⟩
  · cases hm.symm.trans hb
    exact hP
  · cases hm.symm.trans he

theorem Yields.mono {P' : α → Prop} (h : Yields m P E) (himp : ∀ a, P a → P' a) :
    Yields m P' E := by
  intro s
  rcases h s with ⟨a, t, hm, ha⟩ | herror
  · exact .inl ⟨a, t, hm, himp a ha⟩
  · exact .inr herror

theorem Yields.and {P' : α → Prop} (h : Yields m P E) (h' : Yields m P' E) :
    Yields m (fun a => P a ∧ P' a) E := by
  intro s
  rcases h s with ⟨a, t, hm, ha⟩ | herror
  · exact .inl ⟨a, t, hm, ha, h'.of_ok hm⟩
  · exact .inr herror

theorem yields_pure {a : α} (h : P a) : Yields (pure a : StateT σ (Except ε) α) P E :=
  (returns_pure h).yields

theorem Yields.bind (h : Yields m P E) (hf : ∀ a, P a → Yields (f a) Q E) :
    Yields (m >>= f) Q E := by
  intro s
  rcases h s with ⟨a, t, hm, ha⟩ | ⟨e, he, hE⟩
  · rw [bind_ok hm]
    exact hf a ha t
  · exact .inr ⟨e, bind_error he, hE⟩

theorem Yields.map {g : α → β} (h : Yields m P E) (hg : ∀ a, P a → Q (g a)) :
    Yields (do return g (← m)) Q E :=
  h.bind fun a ha => yields_pure (hg a ha)

/-! ## Loops -/

/-- A fold keeps an invariant of the elements that it has done, when its body does. -/
theorem Yields.foldlM {g : β → α → StateT σ (Except ε) β} (I : List α → β → Prop)
    (hg : ∀ done x b, I done b → Yields (g b x) (I (done ++ [x])) E) :
    ∀ (l done : List α) (b : β), I done b → Yields (l.foldlM g b) (I (done ++ l)) E := by
  intro l
  induction l with
  | nil =>
    intro done b hb
    rw [List.append_nil]
    exact yields_pure hb
  | cons x l ih =>
    intro done b hb
    rw [List.foldlM_cons, List.append_cons]
    exact (hg done x b hb).bind fun b' hb' => ih (done ++ [x]) b' hb'

def times (n : Nat) (m : StateT σ (Except ε) α) : StateT σ (Except ε) (List α) :=
  match n with
  | 0 => pure []
  | n + 1 => do
    let a ← m
    let as ← times n m
    return a :: as

theorem Returns.times (h : Returns m P) (n : Nat) :
    Returns (times n m) fun as => as.length = n := by
  induction n with
  | zero => exact returns_pure rfl
  | succ n ih =>
    refine h.bind fun a _ => ih.bind fun as has => returns_pure ?_
    rw [List.length_cons, has]

/-- A loop that changes the elements of a list where they are. -/
def each (f : α → StateT σ (Except ε) β) : List α → StateT σ (Except ε) (List β)
  | [] => pure []
  | a :: as => do
    let b ← f a
    let bs ← each f as
    return b :: bs

theorem Returns.each {R : α → β → Prop} (h : ∀ a, Returns (f a) (R a)) (as : List α) :
    Returns (each f as) (List.Forall₂ R as) := by
  induction as with
  | nil => exact returns_pure .nil
  | cons a as ih => exact (h a).bind fun b hb => ih.map fun bs hbs => .cons hb hbs

theorem each_ok_iff {R : α → Prop} (h : ∀ a s, (∃ b t, f a s = .ok (b, t)) ↔ R a) (as : List α)
    (s : σ) : (∃ bs t, each f as s = .ok (bs, t)) ↔ ∀ a ∈ as, R a := by
  induction as generalizing s with
  | nil => exact iff_of_true ⟨[], s, rfl⟩ (List.forall_mem_nil R)
  | cons a as ih =>
    rw [List.forall_mem_cons, ← h a s]
    cases ha : f a s with
    | error e =>
      have herror : each f (a :: as) s = .error e := bind_error ha
      simp [herror]
    | ok p =>
      have hrest : each f (a :: as) s = (do return p.1 :: (← each f as)) p.2 := bind_ok ha
      rw [hrest, ← ih p.2, and_iff_right ⟨p.1, p.2, rfl⟩]
      cases has : each f as p.2 with
      | error e => rw [bind_error has]
      | ok q =>
        rw [bind_ok has]
        exact iff_of_true ⟨p.1 :: q.1, q.2, rfl⟩ ⟨q.1, q.2, rfl⟩

theorem each_map {α' β' : Type} {f' : α' → StateT σ (Except ε) β'} (φ : α → α') (ψ : β → β')
    (h : ∀ a, f' (φ a) = ψ <$> f a) (as : List α) :
    each f' (as.map φ) = List.map ψ <$> each f as := by
  induction as with
  | nil => rfl
  | cons a as ih =>
    rw [List.map_cons, each, each, h, ih]
    simp only [map_bind, bind_map_left, map_pure, List.map_cons]

/-! ## What can be drawn -/

/-- One value with `P` comes from some source, whatever source is to be left. -/
def Reaches (m : StateT σ (Except ε) α) (P : α → Prop) : Prop :=
  ∃ a, P a ∧ ∀ t, ∃ s, m s = .ok (a, t)

theorem reaches_pure {a : α} (h : P a) : Reaches (pure a : StateT σ (Except ε) α) P :=
  ⟨a, h, fun t => ⟨t, rfl⟩⟩

theorem Reaches.bind (h : Reaches m P) (hf : ∀ a, P a → Reaches (f a) Q) :
    Reaches (m >>= f) Q := by
  obtain ⟨a, ha, hm⟩ := h
  obtain ⟨b, hb, hfa⟩ := hf a ha
  refine ⟨b, hb, fun u => ?_⟩
  obtain ⟨t, ht⟩ := hfa u
  obtain ⟨s, hs⟩ := hm t
  exact ⟨s, (bind_ok hs).trans ht⟩

theorem Reaches.map {g : α → β} (h : Reaches m P) (hg : ∀ a, P a → Q (g a)) :
    Reaches (do return g (← m)) Q :=
  h.bind fun a ha => reaches_pure (hg a ha)

theorem reaches_ofExcept {x : Except ε α} {a : α} (h : x = .ok a) :
    Reaches (ofExcept x : StateT σ (Except ε) α) (· = a) := by
  rw [h]
  exact reaches_pure rfl

theorem Reaches.times (h : Reaches m P) (n : Nat) :
    Reaches (times n m) fun as => as.length = n := by
  induction n with
  | zero => exact reaches_pure rfl
  | succ n ih =>
    refine h.bind fun a _ => ih.bind fun as has => reaches_pure ?_
    rw [List.length_cons, has]

/-- From some source the program returns a value with `P`. -/
def MayReturn (m : StateT σ (Except ε) α) (P : α → Prop) : Prop := ∃ s a t, m s = .ok (a, t) ∧ P a

theorem Returns.mayReturn (h : Returns m P) (s : σ) : MayReturn m P := ⟨s, h s⟩

theorem Reaches.mayReturn (h : Reaches m P) (hf : ∀ a, P a → MayReturn (f a) Q) :
    MayReturn (m >>= f) Q := by
  obtain ⟨a, ha, hm⟩ := h
  obtain ⟨s, b, t, hb, hQ⟩ := hf a ha
  obtain ⟨s', hs'⟩ := hm s
  exact ⟨s', b, t, (bind_ok hs').trans hb, hQ⟩

end Draw
