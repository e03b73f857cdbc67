import Owls.Base.Glob

/-!
# Matching a pattern

`Utils::match`, which walks over two strings at once. A string is what stands before its
terminator, with a `Char` for each byte.
-/

open Glob

namespace Owls.Utils

/-! ## The code -/

/-- `first` moved on to the last of the stars in a row. -/
def skipStars : List Char → List Char
  | [] => []
  | c :: cs => if c = '*' ∧ cs.head? = some '*' then skipStars cs else c :: cs

theorem length_skipStars (cs : List Char) : (skipStars cs).length ≤ cs.length := by
  induction cs with
  | nil => exact Nat.le_refl _
  | cons c cs ih =>
    rw [skipStars]
    split
    · exact Nat.le_succ_of_le ih
    · exact Nat.le_refl _

/-- `a || b`, where `b` is only called after `a`. -/
def orElse (a b : Option Bool) : Option Bool :=
  match a with
  | some false => b
  | _ => a

/-- `none`: it reads past the terminator of the second string. A step over the terminator is enough
for that, as no step that follows ends the call before it has read there. -/
def match? (first second : List Char) : Option Bool :=
  if first = [] ∧ second = [] then some true
  else
    match _hfirst : skipStars first with
    | [] => some false
    | c :: rest =>
      if c = '*' ∧ rest ≠ [] ∧ second = [] then some false
      else
        match second with
        | [] =>
          if c = '?' then none
          else if c = '*' then orElse (match? rest []) none
          else some false
        | d :: ds =>
          if c = '?' ∨ c = d then match? rest ds
          else if c = '*' then orElse (match? rest (d :: ds)) (match? (c :: rest) ds)
          else some false
termination_by first.length + second.length
decreasing_by
  all_goals
    have hlength := length_skipStars first
    rw [_hfirst, List.length_cons] at hlength
    simp only [List.length_cons, List.length_nil]
    omega

/-! ## The walk over the pieces -/

def pieceOf (c : Char) : Piece Char :=
  if c = '?' then .one else if c = '*' then .run else .lit c

def pieces (pattern : List Char) : List (Piece Char) := pattern.map pieceOf

/-- What `match` does with the pieces, where no two runs stand next to each other. -/
def walk (p : List (Piece Char)) (s : List Char) : Option Bool :=
  match p, s with
  | [], [] => some true
  | [], _ :: _ => some false
  | .one :: _, [] => none
  | .one :: p, _ :: s => walk p s
  | .lit _ :: _, [] => some false
  | .lit c :: p, d :: s => if c = d then walk p s else some false
  | .run :: p, [] => some p.isEmpty
  | .run :: p, d :: s =>
    if d = '*' then walk p s else orElse (walk p (d :: s)) (walk (.run :: p) s)
termination_by p.length + s.length

theorem pieceOf_one : pieceOf '?' = .one := rfl

theorem pieceOf_run : pieceOf '*' = .run := rfl

theorem pieceOf_lit {c : Char} (hone : c ≠ '?') (hrun : c ≠ '*') : pieceOf c = .lit c := by
  rw [pieceOf, if_neg hone, if_neg hrun]

theorem eq_of_pieceOf_run {c : Char} (h : pieceOf c = .run) : c = '*' := by
  by_contra hrun
  by_cases hone : c = '?'
  · rw [hone, pieceOf_one] at h
    cases h
  · rw [pieceOf_lit hone hrun] at h
    cases h

theorem squeeze_pieces (first : List Char) :
    squeeze (pieces first) = squeeze (pieces (skipStars first)) := by
  induction first with
  | nil => rfl
  | cons c cs ih =>
    rw [skipStars]
    split
    · rename_i h
      obtain ⟨ds, rfl⟩ := List.head?_eq_some_iff.mp h.2
      rw [h.1, ← ih]
      exact squeeze_run_run
    · rfl

theorem skipStars_eq_nil {first : List Char} (h : skipStars first = []) : first = [] := by
  induction first with
  | nil => rfl
  | cons c cs ih =>
    rw [skipStars] at h
    split at h
    · rename_i hstars
      rw [ih h] at hstars
      cases hstars.2
    · cases h

theorem skipStars_last {first rest : List Char} {c : Char} (h : skipStars first = c :: rest)
    (hc : c = '*') : rest.head? ≠ some '*' := by
  induction first with
  | nil => cases h
  | cons d ds ih =>
    rw [skipStars] at h
    split at h
    · exact ih h
    · rename_i hnot
      obtain ⟨rfl, rfl⟩ := List.cons.inj h
      exact fun hhead => hnot ⟨hc, hhead⟩

theorem squeeze_stopped {first rest : List Char} {c : Char} (h : skipStars first = c :: rest) :
    squeeze (pieces (c :: rest)) = pieceOf c :: squeeze (pieces rest) := by
  refine squeeze_cons fun hrun hhead => ?_
  obtain ⟨d, hd, hrun'⟩ : ∃ d, rest.head? = some d ∧ pieceOf d = .run := by
    rwa [List.head?_map, Option.map_eq_some_iff] at hhead
  rw [eq_of_pieceOf_run hrun'] at hd
  exact skipStars_last h (eq_of_pieceOf_run hrun) hd

theorem squeeze_skipStars {first rest : List Char} {c : Char} (h : skipStars first = c :: rest) :
    squeeze (pieces first) = pieceOf c :: squeeze (pieces rest) := by
  rw [squeeze_pieces, h, squeeze_stopped h]

theorem match?_eq_walk (first second : List Char) :
    match? first second = walk (squeeze (pieces first)) second := by
  fun_induction match? first second with
  | case1 first second h =>
    rw [h.1, h.2]
    exact walk.eq_1.symm
  | case2 first second h hskip =>
    rw [squeeze_pieces, hskip]
    cases second with
    | nil => exact absurd ⟨skipStars_eq_nil hskip, rfl⟩ h
    | cons d ds => exact walk.eq_2 d ds |>.symm
  | case3 first second h c rest hskip hguard =>
    obtain ⟨rfl, hrest, rfl⟩ := hguard
    have hne : squeeze (pieces rest) ≠ [] := by
      rw [ne_eq, squeeze_eq_nil, pieces, List.map_eq_nil_iff]
      exact hrest
    rw [squeeze_skipStars hskip, pieceOf_run, walk, List.isEmpty_eq_false_iff.mpr hne]
  | case4 first rest h hskip hguard => rw [squeeze_skipStars hskip, pieceOf_one, walk]
  | case5 first rest h hskip hone hguard ih =>
    obtain rfl : rest = [] := by simpa using hguard
    have hend : walk (squeeze (pieces [])) [] = some true := walk.eq_1
    rw [squeeze_skipStars hskip, ih, hend, pieceOf_run, walk]
    rfl
  | case6 first c rest hskip hone hrun h hguard =>
    rw [squeeze_skipStars hskip, pieceOf_lit hone hrun, walk]
  | case7 first c rest hskip d ds hc h hguard ih =>
    rw [squeeze_skipStars hskip, ih]
    rcases hc with rfl | rfl
    · rw [pieceOf_one, walk]
    · by_cases hone : c = '?'
      · rw [hone, pieceOf_one, walk]
      by_cases hrun : c = '*'
      · rw [hrun, pieceOf_run, walk, if_pos rfl]
      · rw [pieceOf_lit hone hrun, walk, if_pos rfl]
  | case8 first rest d ds h hskip hsame hguard ihtake ihskip =>
    rw [squeeze_skipStars hskip, pieceOf_run, walk, if_neg, ihskip, ihtake, squeeze_stopped hskip,
      pieceOf_run]
    exact fun hd => hsame (.inr hd.symm)
  | case9 first c rest hskip d ds hsame hrun h hguard =>
    obtain ⟨hone, hne⟩ := not_or.mp hsame
    rw [squeeze_skipStars hskip, pieceOf_lit hone hrun, walk, if_neg hne]

/-! ## What is laid over the subject -/

/-- Laid over the whole of a subject, a pattern leaves some of its end. A run is over with the
first star of the subject, and stops nowhere else before a star. -/
inductive Leaves : List (Piece Char) → List Char → List (Piece Char) → Prop where
  | done (p) : Leaves p [] p
  | one {p s rest} (d : Char) : Leaves p s rest → Leaves (.one :: p) (d :: s) rest
  | lit {p s rest} (d : Char) : Leaves p s rest → Leaves (.lit d :: p) (d :: s) rest
  | star {p s rest} : Leaves p s rest → Leaves (.run :: p) ('*' :: s) rest
  | skip {p s rest} (d : Char) (hd : d ≠ '*') :
      Leaves p (d :: s) rest → Leaves (.run :: p) (d :: s) rest
  | take {p s rest} (d : Char) (hd : d ≠ '*') :
      Leaves (.run :: p) s rest → Leaves (.run :: p) (d :: s) rest

def Leads (end_ : List (Piece Char) → Prop) (p : List (Piece Char)) (s : List Char) : Prop :=
  ∃ rest, end_ rest ∧ Leaves p s rest

/-- Nothing is left, or a run that may be empty. -/
def Fits : List (Piece Char) → List Char → Prop := Leads fun rest => rest = [] ∨ rest = [.run]

/-- A piece that asks for one character is left. -/
def Wants : List (Piece Char) → List Char → Prop := Leads fun rest => rest.head? = some .one

variable {end_ : List (Piece Char) → Prop} {p : List (Piece Char)} {s t : List Char} {c d : Char}
  {a b : Option Bool}

theorem leads_end : Leads end_ p [] ↔ end_ p := by
  constructor
  · rintro ⟨rest, hend, h⟩
    cases h with
    | done => exact hend
  · exact fun hend => ⟨p, hend, .done p⟩

theorem not_leads_nil : ¬ Leads end_ [] (d :: s) := by
  rintro ⟨rest, -, h⟩
  cases h

theorem leads_one : Leads end_ (.one :: p) (d :: s) ↔ Leads end_ p s := by
  constructor
  · rintro ⟨rest, hend, h⟩
    cases h with
    | one _ h => exact ⟨rest, hend, h⟩
  · rintro ⟨rest, hend, h⟩
    exact ⟨rest, hend, .one d h⟩

theorem leads_lit : Leads end_ (.lit c :: p) (d :: s) ↔ c = d ∧ Leads end_ p s := by
  constructor
  · rintro ⟨rest, hend, h⟩
    cases h with
    | lit _ h => exact ⟨rfl, rest, hend, h⟩
  · rintro ⟨rfl, rest, hend, h⟩
    exact ⟨rest, hend, .lit c h⟩

theorem leads_star : Leads end_ (.run :: p) ('*' :: s) ↔ Leads end_ p s := by
  constructor
  · rintro ⟨rest, hend, h⟩
    cases h with
    | star h => exact ⟨rest, hend, h⟩
    | skip _ hd h => exact absurd rfl hd
    | take _ hd h => exact absurd rfl hd
  · rintro ⟨rest, hend, h⟩
    exact ⟨rest, hend, .star h⟩

theorem leads_run (hd : d ≠ '*') :
    Leads end_ (.run :: p) (d :: s) ↔ Leads end_ p (d :: s) ∨ Leads end_ (.run :: p) s := by
  constructor
  · rintro ⟨rest, hend, h⟩
    cases h with
    | star h => exact absurd rfl hd
    | skip _ _ h => exact .inl ⟨rest, hend, h⟩
    | take _ _ h => exact .inr ⟨rest, hend, h⟩
  · rintro (⟨rest, hend, h⟩ | ⟨rest, hend, h⟩)
    · exact ⟨rest, hend, .skip d hd h⟩
    · exact ⟨rest, hend, .take d hd h⟩

theorem fits_one (h : Fits (.one :: p) s) : ∃ d v, s = d :: v ∧ Fits p v := by
  cases s with
  | nil => rcases leads_end.mp h with h | h <;> cases h
  | cons d s => exact ⟨d, s, rfl, leads_one.mp h⟩

theorem fits_lit (h : Fits (.lit c :: p) s) : ∃ v, s = c :: v ∧ Fits p v := by
  cases s with
  | nil => rcases leads_end.mp h with h | h <;> cases h
  | cons d s =>
    obtain ⟨rfl, hfits⟩ := leads_lit.mp h
    exact ⟨s, rfl, hfits⟩

theorem fits_run (h : Fits (.run :: p) s) : ∃ v, v <:+ s ∧ Fits p v := by
  induction s with
  | nil =>
    obtain h | h := leads_end.mp h
    · cases h
    · exact ⟨[], List.suffix_rfl, leads_end.mpr (.inl (List.cons.inj h).2)⟩
  | cons d s ih =>
    by_cases hd : d = '*'
    · rw [hd] at h ⊢
      exact ⟨s, List.suffix_cons '*' s, leads_star.mp h⟩
    · obtain h | h := (leads_run hd).mp h
      · exact ⟨d :: s, List.suffix_rfl, h⟩
      · obtain ⟨v, hv, hfits⟩ := ih h
        exact ⟨v, hv.trans (List.suffix_cons d s), hfits⟩

theorem matches_of_fits (h : Fits p s) : Matches p s := by
  obtain ⟨rest, hrest, h⟩ := h
  induction h with
  | done p =>
    rcases hrest with rfl | rfl
    · exact .nil
    · exact .skip .nil
  | one d h ih => exact .one d (ih hrest)
  | lit d h ih => exact .lit d (ih hrest)
  | star h ih => exact .take '*' (.skip (ih hrest))
  | skip d hd h ih => exact .skip (ih hrest)
  | take d hd h ih => exact .take d (ih hrest)

/-! ## How the walk ends -/

theorem orElse_eq_true : orElse a b = some true ↔ a = some true ∨ a = some false ∧ b = some true := by
  rcases a with _ | _ | _ <;> simp [orElse]

theorem orElse_eq_false : orElse a b = some false ↔ a = some false ∧ b = some false := by
  rcases a with _ | _ | _ <;> simp [orElse]

theorem orElse_eq_none : orElse a b = none ↔ a = none ∨ a = some false ∧ b = none := by
  rcases a with _ | _ | _ <;> simp [orElse]

theorem orElse_of_take (ha : a ≠ none) (hb : b = some true) : orElse a b = some true := by
  rcases a with _ | _ | _
  · exact absurd rfl ha
  · exact hb
  · rfl

theorem fits_of_walk (h : walk p s = some true) : Fits p s := by
  fun_induction walk p s with
  | case1 => exact leads_end.mpr (.inl rfl)
  | case2 | case3 | case5 | case7 => cases h
  | case4 p d s ih => exact leads_one.mpr (ih h)
  | case6 p d s ih => exact leads_lit.mpr ⟨rfl, ih h⟩
  | case8 p =>
    obtain rfl : p = [] := by simpa using h
    exact leads_end.mpr (.inr rfl)
  | case9 p s ih => exact leads_star.mpr (ih h)
  | case10 p d s hd ihskip ihtake =>
    rcases orElse_eq_true.mp h with h | ⟨-, h⟩
    · exact (leads_run hd).mpr (.inl (ihskip h))
    · exact (leads_run hd).mpr (.inr (ihtake h))

theorem wants_of_walk (h : walk p s = none) : Wants p s := by
  fun_induction walk p s with
  | case1 | case2 | case5 | case7 | case8 => cases h
  | case3 => exact leads_end.mpr rfl
  | case4 p d s ih => exact leads_one.mpr (ih h)
  | case6 p d s ih => exact leads_lit.mpr ⟨rfl, ih h⟩
  | case9 p s ih => exact leads_star.mpr (ih h)
  | case10 p d s hd ihskip ihtake =>
    rcases orElse_eq_none.mp h with h | ⟨-, h⟩
    · exact (leads_run hd).mpr (.inl (ihskip h))
    · exact (leads_run hd).mpr (.inr (ihtake h))

theorem walk_of_wants (h : Wants p s) : walk p s ≠ some false := by
  fun_induction walk p s with
  | case1 => exact fun h => nomatch h
  | case2 => exact absurd h not_leads_nil
  | case3 => exact fun h => nomatch h
  | case4 p d s ih => exact ih (leads_one.mp h)
  | case5 c p => cases leads_end.mp h
  | case6 p d s ih => exact ih (leads_lit.mp h).2
  | case7 c p d s hne => exact absurd (leads_lit.mp h).1 hne
  | case8 p => cases leads_end.mp h
  | case9 p s ih => exact ih (leads_star.mp h)
  | case10 p d s hd ihskip ihtake =>
    intro hfalse
    obtain ⟨hskip, htake⟩ := orElse_eq_false.mp hfalse
    rcases (leads_run hd).mp h with h | h
    · exact ihskip h hskip
    · exact ihtake h htake

theorem suffix_of_cons (h : d :: t <:+ c :: s) : t <:+ s := by
  rcases List.suffix_cons_iff.mp h with heq | h
  · cases heq
    exact List.suffix_rfl
  · exact (List.suffix_cons d t).trans h

theorem suffix_ne_cons (h : t <:+ s) : t ≠ d :: s := by
  rintro rfl
  exact absurd h.length_le (Nat.not_succ_le_self _)

theorem walk_of_fits (h : Fits p t) (hsuffix : t <:+ s) :
    walk p s ≠ none ∧ (t = s → walk p s = some true) := by
  induction p, s using walk.induct generalizing t with
  | case1 =>
    rw [walk]
    exact ⟨Option.some_ne_none true, fun _ => rfl⟩
  | case2 d s =>
    rw [walk]
    refine ⟨Option.some_ne_none false, ?_⟩
    rintro rfl
    exact absurd h not_leads_nil
  | case3 p =>
    obtain ⟨e, v, rfl, -⟩ := fits_one h
    exact absurd (List.suffix_nil.mp hsuffix) (List.cons_ne_nil e v)
  | case4 p d s ih =>
    rw [walk]
    obtain ⟨e, v, rfl, hfits⟩ := fits_one h
    obtain ⟨hnone, htrue⟩ := ih hfits (suffix_of_cons hsuffix)
    exact ⟨hnone, fun heq => htrue (List.cons.inj heq).2⟩
  | case5 c p =>
    obtain ⟨v, rfl, -⟩ := fits_lit h
    exact absurd (List.suffix_nil.mp hsuffix) (List.cons_ne_nil c v)
  | case6 p d s ih =>
    rw [walk, if_pos rfl]
    obtain ⟨v, rfl, hfits⟩ := fits_lit h
    obtain ⟨hnone, htrue⟩ := ih hfits (suffix_of_cons hsuffix)
    exact ⟨hnone, fun heq => htrue (List.cons.inj heq).2⟩
  | case7 c p d s hne =>
    rw [walk, if_neg hne]
    refine ⟨Option.some_ne_none false, ?_⟩
    rintro rfl
    exact absurd (leads_lit.mp h).1 hne
  | case8 p =>
    rw [List.suffix_nil.mp hsuffix] at h
    obtain rfl : p = [] := by
      rcases leads_end.mp h with h | h
      · cases h
      · exact (List.cons.inj h).2
    rw [walk]
    exact ⟨Option.some_ne_none _, fun _ => rfl⟩
  | case9 p s ih =>
    rw [walk, if_pos rfl]
    rcases List.suffix_cons_iff.mp hsuffix with rfl | hsuffix
    · obtain ⟨hnone, htrue⟩ := ih (leads_star.mp h) List.suffix_rfl
      exact ⟨hnone, fun _ => htrue rfl⟩
    · obtain ⟨v, hv, hfits⟩ := fits_run h
      have hnone := (ih hfits (hv.trans hsuffix)).1
      exact ⟨hnone, fun heq => absurd heq (suffix_ne_cons hsuffix)⟩
  | case10 p d s hd ihskip ihtake =>
    rw [walk, if_neg hd]
    obtain ⟨v, hv, hfits⟩ := fits_run h
    have hskip := (ihskip hfits (hv.trans hsuffix)).1
    rcases List.suffix_cons_iff.mp hsuffix with rfl | hsuffix
    · have htrue : orElse (walk p (d :: s)) (walk (.run :: p) s) = some true := by
        rcases (leads_run hd).mp h with h | h
        · exact orElse_eq_true.mpr (.inl ((ihskip h List.suffix_rfl).2 rfl))
        · exact orElse_of_take hskip ((ihtake h List.suffix_rfl).2 rfl)
      rw [htrue]
      exact ⟨Option.some_ne_none _, fun _ => rfl⟩
    · have hnone : orElse (walk p (d :: s)) (walk (.run :: p) s) ≠ none := by
        intro hnone
        rcases orElse_eq_none.mp hnone with hnone | ⟨-, hnone⟩
        · exact hskip hnone
        · exact (ihtake h hsuffix).1 hnone
      exact ⟨hnone, fun heq => absurd heq (suffix_ne_cons hsuffix)⟩

theorem walk_eq_true : walk p s = some true ↔ Fits p s :=
  ⟨fits_of_walk, fun h => (walk_of_fits h List.suffix_rfl).2 rfl⟩

theorem walk_eq_none (h : ¬ Fits p s) : walk p s = none ↔ Wants p s := by
  refine ⟨wants_of_walk, fun hwants => ?_⟩
  rcases hwalk : walk p s with _ | _ | _
  · rfl
  · exact absurd hwalk (walk_of_wants hwants)
  · exact absurd (fits_of_walk hwalk) h

/-! ## Subjects without stars -/

theorem Leaves.suffix {rest : List (Piece Char)} (h : Leaves p s rest) : rest <:+ p := by
  induction h with
  | done p => exact List.suffix_rfl
  | one d h ih => exact ih.trans (List.suffix_cons _ _)
  | lit d h ih => exact ih.trans (List.suffix_cons _ _)
  | star h ih => exact ih.trans (List.suffix_cons _ _)
  | skip d hd h ih => exact ih.trans (List.suffix_cons _ _)
  | take d hd h ih => exact ih

theorem leaves_of_matches (h : Matches p s) (hstar : '*' ∉ s) :
    ∃ rest, (∀ x ∈ rest, x = .run) ∧ Leaves p s rest := by
  induction h with
  | nil => exact ⟨[], List.forall_mem_nil _, .done []⟩
  | one d h ih =>
    obtain ⟨rest, hruns, h⟩ := ih (List.not_mem_of_not_mem_cons hstar)
    exact ⟨rest, hruns, .one d h⟩
  | lit d h ih =>
    obtain ⟨rest, hruns, h⟩ := ih (List.not_mem_of_not_mem_cons hstar)
    exact ⟨rest, hruns, .lit d h⟩
  | @skip p s h ih =>
    obtain ⟨rest, hruns, hleaves⟩ := ih hstar
    cases s with
    | nil =>
      cases hleaves
      exact ⟨.run :: p, List.forall_mem_cons.mpr ⟨rfl, hruns⟩, .done _⟩
    | cons d s => exact ⟨rest, hruns, .skip d (List.ne_of_not_mem_cons hstar).symm hleaves⟩
  | take d h ih =>
    obtain ⟨rest, hruns, h⟩ := ih (List.not_mem_of_not_mem_cons hstar)
    exact ⟨rest, hruns, .take d (List.ne_of_not_mem_cons hstar).symm h⟩

theorem fits_of_matches (h : Matches p s) (hstar : '*' ∉ s) : Fits (squeeze p) s := by
  obtain ⟨rest, hruns, hleaves⟩ := leaves_of_matches (matches_squeeze.mpr h) hstar
  refine ⟨rest, ?_, hleaves⟩
  obtain ⟨u, hu⟩ := hleaves.suffix
  match rest, hruns with
  | [], _ => exact .inl rfl
  | [x], hruns => exact .inr (by rw [hruns x List.mem_cons_self])
  | x :: y :: rest, hruns =>
    rw [hruns x List.mem_cons_self, hruns y (List.mem_cons_of_mem x List.mem_cons_self)] at hu
    exact absurd hu.symm (squeeze_ne_runs u rest)

theorem match?_eq_true (pattern subject : List Char) (hstar : '*' ∉ subject) :
    match? pattern subject = some true ↔ Matches (pieces pattern) subject := by
  rw [match?_eq_walk, walk_eq_true]
  exact ⟨fun h => matches_squeeze.mp (matches_of_fits h), fun h => fits_of_matches h hstar⟩

/-! ## All subjects -/

/-- It answers, and as a glob does, where the pattern fits, and where it matches nowhere and wants
no character past the end. -/
theorem match?_answers_iff (pattern subject : List Char) :
    (∃ answer, match? pattern subject = some answer ∧
        (answer = true ↔ Matches (pieces pattern) subject)) ↔
      Fits (squeeze (pieces pattern)) subject ∨
        ¬ Matches (pieces pattern) subject ∧ ¬ Wants (squeeze (pieces pattern)) subject := by
  rw [match?_eq_walk]
  by_cases hfits : Fits (squeeze (pieces pattern)) subject
  · refine iff_of_true ⟨true, walk_eq_true.mpr hfits, ?_⟩ (.inl hfits)
    exact iff_of_true rfl (matches_squeeze.mp (matches_of_fits hfits))
  have htrue : walk (squeeze (pieces pattern)) subject ≠ some true := fun h =>
    hfits (walk_eq_true.mp h)
  have hnone := walk_eq_none hfits
  rcases hwalk : walk (squeeze (pieces pattern)) subject with _ | _ | _
  · simp [hfits, hnone.mp hwalk]
  · have hwants : ¬ Wants (squeeze (pieces pattern)) subject := fun h =>
      walk_of_wants h hwalk
    simp [hfits, hwants]
  · exact absurd hwalk htrue

/-- A star of the subject is all that a star stands for. -/
theorem star_taken_for_star :
    ¬ ∀ pattern subject : List Char, ∃ answer, match? pattern subject = some answer ∧
      (answer = true ↔ Matches (pieces pattern) subject) := by
  intro h
  obtain ⟨answer, hanswer, hiff⟩ := h ['*'] ['*', 'a']
  have hfalse : match? ['*'] ['*', 'a'] = some false := by
    rw [match?_eq_walk]
    have hpieces : squeeze (pieces ['*']) = [.run] := by decide
    rw [hpieces, walk, if_pos rfl, walk]
  rw [hfalse] at hanswer
  rw [← Option.some.inj hanswer] at hiff
  cases hiff.mpr (.take '*' (.take 'a' (.skip .nil)))

end Owls.Utils
