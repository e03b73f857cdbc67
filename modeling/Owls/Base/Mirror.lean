import Mathlib.Data.List.Nodup
import Mathlib.Order.Basic
import Owls.Base.Machine

/-!
# Mirrors

Sources send snapshots of themselves over a network that may lose them and may change their
order. A mirror has places for some of the sources, and shows in each the snapshot that arrived
last. The rules below are about every machine whose steps are steps of a mirror.
-/

open Machine

namespace Mirror

variable {ι σ M : Type*} [DecidableEq ι]

/-! ## Steps -/

/-- What the sources are, what is on its way, and what the mirror shows. -/
structure View (ι σ M : Type*) where
  now : ι → σ
  flying : List M
  shown : ι → Option σ

/-- What is shown after a message with this content. There is no place made for it. -/
def learn (shown : ι → Option σ) : Option (ι × σ) → ι → Option σ
  | none, j => shown j
  | some (i, x), j => if j = i then (shown i).map fun _ => x else shown j

variable (carries : M → Option (ι × σ)) (fresh : σ → Prop)

inductive Step : View ι σ M → View ι σ M → Prop where
  | change (v) (now : ι → σ) : Step v { v with now := now }
  | send (v) (m : M) (honest : ∀ i x, carries m = some (i, x) → v.now i = x) :
      Step v { v with flying := v.flying ++ [m] }
  | arrive (v) (l : List M) (m : M) (r : List M) (h : v.flying = l ++ m :: r) :
      Step v { v with flying := l ++ r, shown := learn v.shown (carries m) }
  | lose (v) (l : List M) (m : M) (r : List M) (h : v.flying = l ++ m :: r) :
      Step v { v with flying := l ++ r }
  /-- Places go, and the ones that come show fresh values. -/
  | renew (v) (shown : ι → Option σ)
      (h : ∀ i x, shown i = some x → v.shown i = some x ∨ v.shown i = none ∧ fresh x) :
      Step v { v with shown := shown }

variable {carries fresh} {v w : View ι σ M} {i : ι} {x y : σ} {m : M}

theorem learn_self (shown : ι → Option σ) :
    learn shown (some (i, x)) i = (shown i).map fun _ => x := if_pos rfl

theorem learn_of_ne {shown : ι → Option σ} {c : Option (ι × σ)}
    (h : ∀ y, c ≠ some (i, y)) : learn shown c i = shown i := by
  cases c with
  | none => rfl
  | some c => exact if_neg fun hi => h c.2 (by rw [hi])

theorem of_learn {shown : ι → Option σ} {c : Option (ι × σ)} (h : learn shown c i = some x) :
    shown i = some x ∨ (shown i).isSome ∧ c = some (i, x) := by
  by_cases hc : ∃ y, c = some (i, y)
  · obtain ⟨y, rfl⟩ := hc
    rw [learn_self] at h
    obtain ⟨z, hz, rfl⟩ := Option.map_eq_some_iff.mp h
    exact .inr ⟨by rw [hz]; rfl, rfl⟩
  · rw [learn_of_ne fun y hy => hc ⟨y, hy⟩] at h
    exact .inl h

omit [DecidableEq ι] in
theorem mem_of_taken {l r : List M} (h : v.flying = l ++ m :: r) : m ∈ v.flying := by
  rw [h]
  exact List.mem_append_right l (List.mem_cons_self ..)

omit [DecidableEq ι] in
theorem mem_of_rest {l r : List M} {m' : M} (h : v.flying = l ++ m :: r) (hm : m' ∈ l ++ r) :
    m' ∈ v.flying := by
  rw [h]
  rcases List.mem_append.mp hm with hl | hr
  · exact List.mem_append_left _ hl
  · exact List.mem_append_right _ (List.mem_cons_of_mem _ hr)

theorem Step.flying (h : Step carries fresh v w) (hm : m ∈ w.flying) :
    m ∈ v.flying ∨ w.now = v.now ∧ ∀ i x, carries m = some (i, x) → v.now i = x := by
  cases h with
  | change | renew => exact .inl hm
  | send m' honest =>
    rcases List.mem_append.mp hm with hm | hm
    · exact .inl hm
    · rw [List.mem_singleton.mp hm]
      exact .inr ⟨rfl, honest⟩
  | arrive l m' r hv | lose l m' r hv => exact .inl (mem_of_rest hv hm)

theorem Step.shown (h : Step carries fresh v w) (hx : w.shown i = some x) :
    v.shown i = some x ∨ (v.shown i).isSome ∧ (∃ m ∈ v.flying, carries m = some (i, x)) ∨
      v.shown i = none ∧ fresh x := by
  cases h with
  | change | send | lose => exact .inl hx
  | renew shown hshown =>
    rcases hshown i x hx with h | h
    · exact .inl h
    · exact .inr (.inr h)
  | arrive l m r hv =>
    rcases of_learn hx with h | ⟨h, hc⟩
    · exact .inl h
    · exact .inr (.inl ⟨h, m, mem_of_taken hv, hc⟩)

/-! ## Runs -/

variable {τ ε : Type*} {step : τ → ε → Option τ} {view : τ → View ι σ M} {s t : τ} {es : List ε}

variable (carries fresh step view) in
/-- Every step of the run is one of the mirror. -/
def Follows (s : τ) (es : List ε) : Prop :=
  ∀ p e, p ++ [e] <+: es → ∀ t u, run step s p = some t → step t e = some u →
    Step carries fresh (view t) (view u)

variable (step view) in
/-- At some moment of the run the source `i` was `x`. -/
def Was (s : τ) (es : List ε) (i : ι) (x : σ) : Prop :=
  ∃ p u, p <+: es ∧ run step s p = some u ∧ (view u).now i = x

omit [DecidableEq ι] in
theorem Was.mono {fs : List ε} (h : Was step view s es i x) (hp : es <+: fs) :
    Was step view s fs i x := by
  obtain ⟨p, u, hpes, hu, hx⟩ := h
  exact ⟨p, u, hpes.trans hp, hu, hx⟩

theorem Follows.of_prefix {fs : List ε} (h : Follows carries fresh step view s es)
    (hp : fs <+: es) : Follows carries fresh step view s fs :=
  fun p e hpe => h p e (hpe.trans hp)

variable (carries fresh step view) in
/-- Nothing is on its way or shown that no source ever was. -/
structure Past (s : τ) (es : List ε) (v : View ι σ M) : Prop where
  flying : ∀ m ∈ v.flying, ∀ i x, carries m = some (i, x) → Was step view s es i x
  shown : ∀ i x, v.shown i = some x → fresh x ∨ Was step view s es i x

/-- **No invention.** The mirror shows what a source was at some moment, or a fresh value. -/
theorem past_run (hfollows : Follows carries fresh step view s es)
    (hflying : (view s).flying = []) (hshown : ∀ i x, (view s).shown i = some x → fresh x)
    (ht : run step s es = some t) : Past carries fresh step view s es (view t) := by
  induction es using List.reverseRecOn generalizing t with
  | nil =>
    cases ht
    constructor
    · intro m hm
      rw [hflying] at hm
      cases hm
    · exact fun i x hx => .inl (hshown i x hx)
  | append_singleton es e ih =>
    have hp := List.prefix_append es [e]
    obtain ⟨u, hu, he⟩ := run_snoc_inv ht
    have hpast := ih (hfollows.of_prefix hp) hu
    have hstep := hfollows es e List.prefix_rfl u t hu he
    constructor
    · intro m hm i x hx
      rcases hstep.flying hm with hm | ⟨-, honest⟩
      · exact (hpast.flying m hm i x hx).mono hp
      · exact ⟨es, u, hp, hu, honest i x hx⟩
    · intro i x hx
      rcases hstep.shown hx with hx | ⟨-, m, hm, hx⟩ | ⟨-, hx⟩
      · exact (hpast.shown i x hx).imp_right fun h => h.mono hp
      · exact .inr ((hpast.flying m hm i x hx).mono hp)
      · exact .inl hx

/-! ## One message at a time -/

section Order

variable {α : Type*} [Preorder α] (f : σ → α)

variable (carries) in
/-- No source has two messages on their way. -/
def Single (v : View ι σ M) : Prop := ((v.flying.filterMap carries).map Prod.fst).Nodup

variable (carries) in
/-- For each source: what is shown, then what is on its way, then what it is. -/
structure Ordered (v : View ι σ M) : Prop where
  flying : ∀ m ∈ v.flying, ∀ i x, carries m = some (i, x) → f x ≤ f (v.now i)
  shown : ∀ i x, v.shown i = some x → f x ≤ f (v.now i)
  behind : ∀ m ∈ v.flying, ∀ i x y, carries m = some (i, x) → v.shown i = some y → f y ≤ f x

omit [DecidableEq ι] in
theorem Single.taken (h : Single carries v) {l r : List M} (hv : v.flying = l ++ m :: r)
    (hm : carries m = some (i, x)) : ∀ m' ∈ l ++ r, ∀ y, carries m' ≠ some (i, y) := by
  have hperm : (l ++ m :: r).Perm (m :: (l ++ r)) := List.perm_middle
  have hnodup : ((((m :: (l ++ r)).filterMap carries)).map Prod.fst).Nodup := by
    refine (((hperm.filterMap carries).map Prod.fst).nodup_iff).mp ?_
    rw [← hv]
    exact h
  rw [List.filterMap_cons_some hm, List.map_cons, List.nodup_cons] at hnodup
  intro m' hm' y hy
  exact hnodup.1 (List.mem_map.mpr ⟨(i, y), List.mem_filterMap.mpr ⟨m', hm', hy⟩, rfl⟩)

omit [DecidableEq ι] in
theorem Single.rest (h : Single carries v) {l r : List M} (hv : v.flying = l ++ m :: r)
    (hw : w.flying = l ++ r) : Single carries w := by
  have hsub : w.flying.Sublist v.flying := by
    rw [hv, hw]
    exact (List.sublist_cons_self m r).append_left l
  exact List.Nodup.sublist ((hsub.filterMap carries).map Prod.fst) h

omit [DecidableEq ι] in
theorem Single.send (h : Single carries v) (hw : w.flying = v.flying ++ [m])
    (hfree : ∀ i x, carries m = some (i, x) → ∀ m' ∈ v.flying, ∀ y, carries m' ≠ some (i, y)) :
    Single carries w := by
  unfold Single
  rw [hw, List.filterMap_append, List.map_append, List.nodup_append]
  refine ⟨h, ?_, ?_⟩
  · cases hm : carries m with
    | none => simp [hm]
    | some c => simp [hm]
  · rintro i hi j hj rfl
    obtain ⟨⟨i', y⟩, hy, rfl⟩ := List.mem_map.mp hi
    obtain ⟨⟨j', x⟩, hx, hij⟩ := List.mem_map.mp hj
    obtain ⟨m', hm', hy⟩ := List.mem_filterMap.mp hy
    obtain ⟨m'', hm'', hx⟩ := List.mem_filterMap.mp hx
    rw [List.mem_singleton.mp hm''] at hx
    obtain rfl : j' = i' := hij
    exact hfree j' x hx m' hm' y hy

variable {f}

theorem ordered_step (hleast : ∀ x, fresh x → ∀ y, f x ≤ f y) (hv : Ordered carries f v)
    (hsingle : Single carries v) (hup : ∀ i, f (v.now i) ≤ f (w.now i))
    (h : Step carries fresh v w) : Ordered carries f w := by
  have hflying : ∀ m ∈ w.flying, ∀ i x, carries m = some (i, x) → f x ≤ f (w.now i) := by
    intro m hm i x hx
    rcases h.flying hm with hm | ⟨hnow, honest⟩
    · exact (hv.flying m hm i x hx).trans (hup i)
    · rw [hnow, honest i x hx]
  have hshown : ∀ i x, w.shown i = some x → f x ≤ f (w.now i) := by
    intro i x hx
    rcases h.shown hx with hx | ⟨-, m, hm, hx⟩ | ⟨-, hx⟩
    · exact (hv.shown i x hx).trans (hup i)
    · exact (hv.flying m hm i x hx).trans (hup i)
    · exact hleast x hx _
  refine ⟨hflying, hshown, ?_⟩
  intro m hm i x y hx hy
  cases h with
  | change => exact hv.behind m hm i x y hx hy
  | send m' honest =>
    rcases List.mem_append.mp hm with hm | hm
    · exact hv.behind m hm i x y hx hy
    · rw [List.mem_singleton.mp hm] at hx
      rw [← honest i x hx]
      exact hv.shown i y hy
  | lose l m' r hl => exact hv.behind m (mem_of_rest hl hm) i x y hx hy
  | renew shown hrenew =>
    rcases hrenew i y hy with hy | ⟨-, hy⟩
    · exact hv.behind m hm i x y hx hy
    · exact hleast y hy x
  | arrive l m' r hl =>
    -- What has arrived is of another source, or else nothing of this one would be on its way.
    have hne : ∀ z, carries m' ≠ some (i, z) := fun z hz => hsingle.taken hl hz m hm x hx
    have hy : learn v.shown (carries m') i = some y := hy
    rw [learn_of_ne hne] at hy
    exact hv.behind m (mem_of_rest hl hm) i x y hx hy

theorem Ordered.forward (hv : Ordered carries f v) (h : Step carries fresh v w)
    (hx : v.shown i = some x) (hy : w.shown i = some y) : f x ≤ f y := by
  rcases h.shown hy with hy | ⟨-, m, hm, hy⟩ | ⟨hnone, -⟩
  · rw [hx] at hy
    cases hy
    rfl
  · exact hv.behind m hm i y x hy hx
  · rw [hnone] at hx
    cases hx

variable (step view f) in
/-- In this step the sources only grow. -/
def Grow (t : τ) (e : ε) : Prop :=
  ∀ u, step t e = some u → ∀ i, f ((view t).now i) ≤ f ((view u).now i)

/-- **No way back.** When the sources grow, and each has at most one message on its way, then
what the mirror shows grows too. -/
theorem shown_grows (hleast : ∀ x, fresh x → ∀ y, f x ≤ f y)
    (hfollows : Follows carries fresh step view s es) (h0 : Ordered carries f (view s))
    (hsingle : Always step (fun t => Single carries (view t)) s es)
    (hgrows : Steps step (Grow step view f) s es) {p : List ε} {e : ε} {t u : τ}
    (hp : p ++ [e] <+: es)
    (ht : run step s p = some t) (hu : step t e = some u) (hx : (view t).shown i = some x)
    (hy : (view u).shown i = some y) : f x ≤ f y := by
  have hpre {q : List ε} {e : ε} (hq : q ++ [e] <+: es) : q <+: es :=
    (List.prefix_append q [e]).trans hq
  have hordered : Always step (fun t => Ordered carries f (view t)) s es := by
    refine always_of_prefix h0 fun q e hq t u ht hu hv => ?_
    exact ordered_step hleast hv (hsingle q (hpre hq) t ht) (hgrows q e hq t u ht hu u hu)
      (hfollows q e hq t u ht hu)
  exact (hordered p (hpre hp) t ht).forward (hfollows p e hp t u ht hu) hx hy

end Order

/-! ## Catching up -/

variable (carries) in
/-- Nothing of `i` on its way is out of date. -/
def Clean (i : ι) (v : View ι σ M) : Prop :=
  ∀ m ∈ v.flying, ∀ x, carries m = some (i, x) → x = v.now i

variable (carries) in
/-- The mirror shows what `i` is, and what is on its way says so too. -/
structure Settled (i : ι) (v : View ι σ M) : Prop where
  clean : Clean carries i v
  shown : v.shown i = some (v.now i)

variable (carries) in
/-- A message of `i` arrives. -/
def Arrives (i : ι) (v w : View ι σ M) : Prop :=
  ∃ l m r x, v.flying = l ++ m :: r ∧ carries m = some (i, x) ∧
    w = { v with flying := l ++ r, shown := learn v.shown (some (i, x)) }

theorem Clean.after (hv : Clean carries i v) (hnow : w.now i = v.now i)
    (h : Step carries fresh v w) : Clean carries i w := by
  intro m hm x hx
  rw [hnow]
  rcases h.flying hm with hm | ⟨-, honest⟩
  · exact hv m hm x hx
  · exact (honest i x hx).symm

theorem Settled.after (hv : Settled carries i v) (hnow : w.now i = v.now i)
    (hplace : (w.shown i).isSome) (h : Step carries fresh v w) : Settled carries i w := by
  refine ⟨hv.clean.after hnow h, ?_⟩
  obtain ⟨x, hx⟩ := Option.isSome_iff_exists.mp hplace
  rw [hx, hnow]
  rcases h.shown hx with hx | ⟨-, m, hm, hx⟩ | ⟨hnone, -⟩
  · exact hx.symm.trans hv.shown
  · rw [hv.clean m hm x hx]
  · rw [hv.shown] at hnone
    cases hnone

theorem Clean.settled (hv : Clean carries i v) (hplace : (v.shown i).isSome)
    (h : Arrives carries i v w) : Settled carries i w := by
  obtain ⟨l, m, r, x, hl, hx, rfl⟩ := h
  obtain ⟨y, hy⟩ := Option.isSome_iff_exists.mp hplace
  constructor
  · exact fun m' hm' => hv m' (mem_of_rest hl hm')
  · have hlearn : learn v.shown (some (i, x)) i = some x := by
      rw [learn_self, hy, Option.map_some]
    exact hlearn.trans (congrArg some (hv m (mem_of_taken hl) x hx))

variable (step view) in
/-- Along the run `i` stays as it is, and has its place. -/
structure Stays (i : ι) (s : τ) (es : List ε) : Prop where
  now : ∀ p t, p <+: es → run step s p = some t → (view t).now i = (view s).now i
  place : ∀ p t, p <+: es → run step s p = some t → ((view t).shown i).isSome

/-- **Catching up.** While a source stays as it is and nothing older is on its way, one message
of it is enough for the mirror to show it, to the end of the run. -/
theorem settled_of_arrival (hfollows : Follows carries fresh step view s es)
    (hstays : Stays step view i s es) (hclean : Clean carries i (view s))
    (harrives : Happens step (fun t _ u => Arrives carries i (view t) (view u)) s es)
    (ht : run step s es = some t) : Settled carries i (view t) := by
  have hpre {q : List ε} {e : ε} (hq : q ++ [e] <+: es) : q <+: es :=
    (List.prefix_append q [e]).trans hq
  have hnow {q : List ε} {e : ε} {t u : τ} (hq : q ++ [e] <+: es) (ht : run step s q = some t)
      (hu : step t e = some u) : (view u).now i = (view t).now i := by
    rw [hstays.now q t (hpre hq) ht]
    exact hstays.now _ u hq (by rw [run_snoc, ht]; exact hu)
  have hcleans : Always step (fun t => Clean carries i (view t)) s es :=
    always_of_prefix hclean fun q e hq t u ht hu hv =>
      hv.after (hnow hq ht hu) (hfollows q e hq t u ht hu)
  induction es using List.reverseRecOn generalizing t with
  | nil => exact absurd harrives (not_happens_nil _ s)
  | append_singleton es e ih =>
    have hp := List.prefix_append es [e]
    obtain ⟨u, hu, he⟩ := run_snoc_inv ht
    rcases (happens_snoc hu he).mp harrives with harrives | harrives
    · refine Settled.after ?_ (hnow List.prefix_rfl hu he) (hstays.place _ t List.prefix_rfl ht)
        (hfollows es e List.prefix_rfl u t hu he)
      exact ih (hfollows.of_prefix hp)
        ⟨fun p t h => hstays.now p t (h.trans hp), fun p t h => hstays.place p t (h.trans hp)⟩
        harrives hu (fun hq => (List.prefix_append _ [_]).trans hq)
        (fun hq ht hu => hnow (hq.trans hp) ht hu)
        (fun p h t ht => hcleans p (h.trans hp) t ht)
    · exact (hcleans es hp u hu).settled (hstays.place es u hp hu) harrives

end Mirror
