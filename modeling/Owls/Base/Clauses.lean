import Mathlib
import Owls.Base.Predicates

/-!
# Nested conditions

Conditions with parentheses, several connectives and no order but the precedence of SQL: what the
parser makes of a row of parts, each of which may be a condition of its own.
-/

namespace Sql

/-! ## Formulas -/

namespace Formula

variable {α β : Type}

def atoms : Formula α → List α
  | .atom a => [a]
  | .and f g | .or f g => f.atoms ++ g.atoms
  | .not f => f.atoms

/-- The formula, where each atom is true or false. -/
def holds (val : α → Bool) : Formula α → Bool
  | .atom a => val a
  | .and f g => f.holds val && g.holds val
  | .or f g => f.holds val || g.holds val
  | .not f => !f.holds val

/-- The formula, where atoms may be unknown. -/
def eval (val : α → Option Bool) : Formula α → Option Bool
  | .atom a => val a
  | .and f g =>
    match f.eval val, g.eval val with
    | some false, _ | _, some false => some false
    | some true, some true => some true
    | _, _ => none
  | .or f g =>
    match f.eval val, g.eval val with
    | some true, _ | _, some true => some true
    | some false, some false => some false
    | _, _ => none
  | .not f => (f.eval val).map (!·)

theorem eval_of_known {f : Formula α} {known : α → Option Bool} {val : α → Bool}
    (h : ∀ a ∈ f.atoms, known a = some (val a)) : f.eval known = some (f.holds val) := by
  induction f with
  | atom a => exact h a (List.mem_singleton_self a)
  | and f g ihf ihg =>
    rw [eval, ihf fun a ha => h a (List.mem_append_left _ ha),
      ihg fun a ha => h a (List.mem_append_right _ ha), holds]
    cases f.holds val <;> cases g.holds val <;> rfl
  | or f g ihf ihg =>
    rw [eval, ihf fun a ha => h a (List.mem_append_left _ ha),
      ihg fun a ha => h a (List.mem_append_right _ ha), holds]
    cases f.holds val <;> cases g.holds val <;> rfl
  | not f ih =>
    rw [eval, ih h, holds]
    rfl

end Formula

/-! ## What a part of a condition is read as -/

section Readings

variable {α : Type} {atom : List Token → Option (α × List Token)}

/-- The token after a part of this level does not go on with it. -/
def Level.Ends (rest : List Token) : Level → Prop
  | .not => True
  | .and => rest.head? ≠ some (.word "and")
  | .or => rest.head? ≠ some (.word "and") ∧ rest.head? ≠ some (.word "or")

def Level.depth : Level → Nat
  | .not => 1
  | .and => 2
  | .or => 3

/-- What a part of a condition means: which atoms it has, in their order, and when it holds. -/
structure Meaning (α : Type) where
  atoms : List α
  holds : (α → Bool) → Bool

def Formula.meaning (f : Formula α) : Meaning α := ⟨f.atoms, fun val => f.holds val⟩

/-- The tokens of a part, which the parser reads at this level. -/
def Reads (atom : List Token → Option (α × List Token)) (level : Level) (ts : List Token)
    (m : Meaning α) : Prop :=
  ∃ f : Formula α, f.meaning = m ∧ ∀ n rest, Stops rest → level.Ends rest →
    3 * ts.length + level.depth ≤ n →
      parseFormula atom n level (ts ++ rest) = some (f, rest)

def Meaning.one (a : α) : Meaning α := ⟨[a], fun val => val a⟩

/-- The connectives of two parts. -/
inductive Connective where
  | and | or
deriving DecidableEq

namespace Connective

def word : Connective → Token
  | .and => .word "and"
  | .or => .word "or"

/-- The level of its parts, and of what it makes of them. -/
def below : Connective → Level
  | .and => .not
  | .or => .and

def level : Connective → Level
  | .and => .and
  | .or => .or

def make : Connective → Formula α → Formula α → Formula α
  | .and => .and
  | .or => .or

def decide : Connective → List Bool → Bool
  | .and => (List.all · id)
  | .or => (List.any · id)

def join (c : Connective) (ms : List (Meaning α)) : Meaning α :=
  ⟨ms.flatMap (·.atoms), fun val => c.decide (ms.map fun m => m.holds val)⟩

variable (c : Connective)

theorem join_singleton (m : Meaning α) : c.join [m] = m := by
  cases c <;> simp [join, decide]

theorem join_cons (m m' : Meaning α) (ms : List (Meaning α)) :
    c.join (m :: m' :: ms) = c.join [m, c.join (m' :: ms)] := by
  cases c <;> simp [join, decide]

theorem meaning_make (f g : Formula α) : (c.make f g).meaning = c.join [f.meaning, g.meaning] := by
  cases c <;> simp [make, join, decide, Formula.meaning, Formula.atoms, Formula.holds]

variable {c} {n : Nat} {ts rest : List Token} {f g : Formula α}

theorem parse_last (h : parseFormula atom n c.below ts = some (f, rest))
    (hrest : rest.head? ≠ some c.word) :
    parseFormula atom (n + 1) c.level ts = some (f, rest) := by
  cases c <;>
  · simp only [below, level] at h ⊢
    rw [parseFormula, h]
    simp only [Option.bind_eq_bind, Option.bind_some]
    split
    · exact absurd rfl hrest
    · rfl

theorem parse_more {us : List Token} (h : parseFormula atom n c.below ts = some (f, c.word :: us))
    (hmore : parseFormula atom n c.level us = some (g, rest)) :
    parseFormula atom (n + 1) c.level ts = some (c.make f g, rest) := by
  cases c <;>
  · simp only [below, level, word] at h hmore ⊢
    rw [parseFormula, h]
    simp only [Option.bind_eq_bind, Option.bind_some, hmore]
    rfl

theorem ends_word (us : List Token) : Stops (c.word :: us) ∧ c.below.Ends (c.word :: us) := by
  cases c <;> simp [Stops, word, below, Level.Ends]

theorem Ends.below (h : c.level.Ends rest) : c.below.Ends rest ∧ rest.head? ≠ some c.word := by
  cases c with
  | and => exact ⟨trivial, h⟩
  | or => exact h

theorem depth_level : c.level.depth = c.below.depth + 1 := by
  cases c <;> rfl

end Connective

/-- A part, as its tokens and what they say. -/
abbrev Part (α : Type) := List Token × Meaning α

theorem reads_phrase {ts : List Token} {a : α} (h : Phrase atom ts a) :
    Reads atom .not ts (.one a) := by
  refine ⟨.atom a, rfl, fun n rest hrest _ hn => ?_⟩
  obtain ⟨m, rfl⟩ : ∃ m, n = m + 1 := ⟨n - 1, by simp only [Level.depth] at hn; omega⟩
  exact parseFormula_not h hrest

theorem reads_paren {ts : List Token} {m : Meaning α} (h : Reads atom .or ts m) :
    Reads atom .not (.symbol "(" :: (ts ++ [.symbol ")"])) m := by
  obtain ⟨f, hf, hparse⟩ := h
  refine ⟨f, hf, fun n rest _ _ hn => ?_⟩
  simp only [List.length_cons, List.length_append, List.length_nil, Level.depth] at hn
  obtain ⟨k, rfl⟩ : ∃ k, n = k + 1 := ⟨n - 1, by omega⟩
  have hinner := hparse k (.symbol ")" :: rest) (by simp [Stops]) (by simp [Level.Ends])
    (by simp only [Level.depth]; omega)
  have htokens : .symbol "(" :: (ts ++ [.symbol ")"]) ++ rest =
      .symbol "(" :: (ts ++ .symbol ")" :: rest) := by simp
  rw [htokens]
  exact parseFormula_paren hinner

theorem reads_join (c : Connective) {ps : List (Part α)}
    (h : ∀ p ∈ ps, Reads atom c.below p.1 p.2) (hne : ps ≠ []) :
    Reads atom c.level (join c.word (ps.map (·.1))) (c.join (ps.map (·.2))) := by
  induction ps with
  | nil => exact absurd rfl hne
  | cons p ps ih =>
    obtain ⟨f, hf, hparse⟩ := h p List.mem_cons_self
    cases ps with
    | nil =>
      refine ⟨f, by rw [List.map_singleton, c.join_singleton, hf], fun n rest hrest hends hn => ?_⟩
      simp only [List.map_singleton, join, c.depth_level] at hn ⊢
      obtain ⟨k, rfl⟩ : ∃ k, n = k + 1 := ⟨n - 1, by omega⟩
      obtain ⟨hbelow, hword⟩ := Connective.Ends.below hends
      exact Connective.parse_last (hparse k rest hrest hbelow (by omega)) hword
    | cons q qs =>
      obtain ⟨g, hg, hmore⟩ := ih (fun r hr => h r (List.mem_cons_of_mem _ hr))
        (List.cons_ne_nil _ _)
      refine ⟨c.make f g, ?_, fun n rest hrest hends hn => ?_⟩
      · simp only [List.map_cons] at hg ⊢
        rw [c.join_cons, ← hg, ← hf, c.meaning_make]
      · have htokens : join c.word ((p :: q :: qs).map (·.1)) =
            p.1 ++ c.word :: join c.word ((q :: qs).map (·.1)) := rfl
        rw [htokens, List.length_append, List.length_cons, c.depth_level] at hn
        obtain ⟨k, rfl⟩ : ∃ k, n = k + 1 := ⟨n - 1, by omega⟩
        obtain ⟨hstops, hword⟩ := c.ends_word (join c.word ((q :: qs).map (·.1)) ++ rest)
        have hfirst := hparse k _ hstops hword (by omega)
        rw [htokens, List.append_assoc, List.cons_append]
        exact Connective.parse_more hfirst
          (hmore k rest hrest hends (by rw [c.depth_level]; omega))

end Readings

/-! ## Texts of conditions -/

section Texts

variable {cs ds : List Char} {m m' : Meaning Comparing}

def Connective.text : Connective → List Char
  | .and => " and ".toList
  | .or => " or ".toList

theorem Connective.separates (c : Connective) : Separates c.text [c.word] := by
  cases c <;> exact ⟨by decide, by decide⟩

/-- The text is read as a part of this level, and means this. -/
def Means (level : Level) (cs : List Char) (m : Meaning Comparing) : Prop :=
  ∃ toks, Lexes cs toks ∧ Reads parseComparing level toks m

/-- Texts of the level below, with the connective between them. -/
def Joins (c : Connective) (means : List Char → Meaning Comparing → Prop) (cs : List Char)
    (m : Meaning Comparing) : Prop :=
  ∃ ps : List (List Char × Meaning Comparing), ps ≠ [] ∧ (∀ p ∈ ps, means p.1 p.2) ∧
    cs = c.text.intercalate (ps.map (·.1)) ∧ m = c.join (ps.map (·.2))

/-- Parts that say something, with `and` between them. -/
abbrev Conjuncts : List Char → Meaning Comparing → Prop := Joins .and (Means .not)

/-- Conjunctions with `or` between them. -/
abbrev Disjuncts : List Char → Meaning Comparing → Prop := Joins .or Conjuncts

section Joins

variable {c : Connective} {means : List Char → Meaning Comparing → Prop}

theorem Joins.one (h : means cs m) : Joins c means cs m :=
  ⟨[(cs, m)], List.cons_ne_nil _ _, by simpa using h, by simp, (c.join_singleton m).symm⟩

theorem intercalate_append {α : Type} (sep : List α) {xss yss : List (List α)} (hx : xss ≠ [])
    (hy : yss ≠ []) :
    sep.intercalate (xss ++ yss) = sep.intercalate xss ++ (sep ++ sep.intercalate yss) := by
  induction xss with
  | nil => exact absurd rfl hx
  | cons xs xss ih =>
    cases xss with
    | nil =>
      cases yss with
      | nil => exact absurd rfl hy
      | cons ys yss => simp [List.intercalate_cons_cons]
    | cons xs' xss =>
      have hmore := ih (List.cons_ne_nil _ _)
      simp only [List.cons_append, List.intercalate_cons_cons] at hmore ⊢
      simp only [hmore, List.append_assoc]

theorem Connective.join_append (c : Connective) (ms ms' : List (Meaning Comparing)) :
    c.join (ms ++ ms') = c.join [c.join ms, c.join ms'] := by
  cases c <;> simp [Connective.join, Connective.decide]

theorem Joins.append (h : Joins c means cs m) (h' : Joins c means ds m') :
    Joins c means (cs ++ (c.text ++ ds)) (c.join [m, m']) := by
  obtain ⟨ps, hne, hmeans, rfl, rfl⟩ := h
  obtain ⟨qs, hne', hmeans', rfl, rfl⟩ := h'
  refine ⟨ps ++ qs, by simp [hne], fun p hp => ?_, ?_, ?_⟩
  · exact (List.mem_append.mp hp).elim (hmeans p) (hmeans' p)
  · rw [List.map_append, intercalate_append _ (by simpa using hne) (by simpa using hne')]
  · rw [List.map_append, c.join_append]

theorem exists_parts {level : Level} {ps : List (List Char × Meaning Comparing)}
    (h : ∀ p ∈ ps, Means level p.1 p.2) :
    ∃ qs : List (List Char × Part Comparing), qs.map (fun q => (q.1, q.2.2)) = ps ∧
      ∀ q ∈ qs, Lexes q.1 q.2.1 ∧ Reads parseComparing level q.2.1 q.2.2 := by
  induction ps with
  | nil => exact ⟨[], rfl, List.forall_mem_nil _⟩
  | cons p ps ih =>
    rw [List.forall_mem_cons] at h
    obtain ⟨toks, hp⟩ := h.1
    obtain ⟨qs, rfl, hqs⟩ := ih h.2
    exact ⟨(p.1, toks, p.2) :: qs, rfl, List.forall_mem_cons.mpr ⟨hp, hqs⟩⟩

theorem Joins.meant (h : Joins c (Means c.below) cs m) : Means c.level cs m := by
  obtain ⟨ps, hne, hmeans, rfl, rfl⟩ := h
  obtain ⟨qs, rfl, hqs⟩ := exists_parts hmeans
  have hne' : qs ≠ [] := by simpa using hne
  have hlexes := lexes_join c.separates (qs.map fun q => (q.1, q.2.1))
    (List.forall_mem_map.mpr fun q hq => (hqs q hq).1) (by simpa using hne')
  have hparts : ∀ p ∈ qs.map (·.2), Reads parseComparing c.below p.1 p.2 :=
    List.forall_mem_map.mpr fun q hq => (hqs q hq).2
  have hreads := reads_join c hparts (by simpa using hne')
  simp only [List.map_map, Function.comp_def] at hlexes hreads ⊢
  exact ⟨_, hlexes, hreads⟩

end Joins

theorem Conjuncts.meant (h : Conjuncts cs m) : Means .and cs m := Joins.meant (c := .and) h

theorem Disjuncts.meant (h : Disjuncts cs m) : Means .or cs m := by
  obtain ⟨ps, hne, hmeans, hcs, hm⟩ := h
  exact Joins.meant (c := .or) ⟨ps, hne, fun p hp => Conjuncts.meant (hmeans p hp), hcs, hm⟩

theorem Disjuncts.paren (h : Disjuncts cs m) : Means .not ('(' :: (cs ++ [')'])) m := by
  obtain ⟨toks, hlexes, hreads⟩ := h.meant
  have hopen : Settled ['('] [.symbol "("] := by decide
  have hclose : Separates [')'] [.symbol ")"] := ⟨by decide, by decide⟩
  exact ⟨_, (hopen.append (hlexes.separate hclose)).lexes, reads_paren hreads⟩

theorem Clause.meant {a : Comparing} (h : Clause cs a) : Means .not cs (.one a) := by
  obtain ⟨toks, hlexes, hphrase⟩ := h
  exact ⟨toks, hlexes, reads_phrase hphrase⟩

/-- Parts without parentheses between them: `AND` binds tighter than `OR`. -/
def chain : Meaning Comparing → List (Connective × Meaning Comparing) → Meaning Comparing
  | m, [] => m
  | m, (.and, m') :: more => chain (Connective.and.join [m, m']) more
  | m, (.or, m') :: more => Connective.or.join [m, chain m' more]

theorem disjuncts_chain (h : Conjuncts cs m)
    (more : List (Connective × List Char × Meaning Comparing))
    (hmore : ∀ p ∈ more, Conjuncts p.2.1 p.2.2) :
    Disjuncts (cs ++ more.flatMap fun p => p.1.text ++ p.2.1)
      (chain m (more.map fun p => (p.1, p.2.2))) := by
  induction more generalizing cs m with
  | nil => simpa [chain] using Joins.one h
  | cons p more ih =>
    obtain ⟨c, ds, m'⟩ := p
    rw [List.forall_mem_cons] at hmore
    rw [List.flatMap_cons, List.map_cons]
    cases c with
    | and =>
      have hboth := ih (h.append hmore.1) hmore.2
      simpa only [List.append_assoc, chain] using hboth
    | or =>
      have hrest := (Joins.one h).append (ih hmore.1 hmore.2)
      simpa only [List.append_assoc, chain] using hrest

end Texts

/-! ## Names in either case -/

theorem isAlpha_of_upper {c : Char} (h : c.val ≥ 'A'.val ∧ c.val ≤ 'Z'.val) :
    c.isAlpha = true := by
  have halpha : c.isAlpha = (decide (c.val ≥ 'A'.val ∧ c.val ≤ 'Z'.val) || c.isLower) := rfl
  rw [halpha, decide_eq_true h]
  rfl

theorem opensName_of_toLower {c : Char} (h : opensName c.toLower = true) : opensName c = true := by
  unfold Char.toLower at h
  split at h
  · rename_i hupper
    rw [opensName, isAlpha_of_upper hupper]
    rfl
  · exact h

theorem inName_of_toLower {c : Char} (h : inName c.toLower = true) : inName c = true := by
  unfold Char.toLower at h
  split at h
  · rename_i hupper
    have hdef : inName c = ((c.isAlpha || c.isDigit) || c == '_') := rfl
    rw [hdef, isAlpha_of_upper hupper]
    rfl
  · exact h

theorem lower_lower (s : String) : lower (lower s) = lower s := by
  simp [lower, Function.comp_def]

theorem isName_of_lower {s : String} (h : isName (lower s) = true) : isName s = true := by
  simp only [isName, Bool.and_eq_true, List.all_eq_true, decide_eq_true_eq, lower_lower] at h ⊢
  obtain ⟨⟨hopens, hin⟩, hkeywords⟩ := h
  simp only [lower, String.toList_ofList, List.head?_map, List.mem_map] at hopens hin
  refine ⟨⟨?_, fun c hc => inName_of_toLower (hin _ ⟨c, hc, rfl⟩)⟩, hkeywords⟩
  cases hhead : s.toList.head? with
  | none => simp [hhead] at hopens
  | some c =>
    rw [hhead] at hopens
    exact opensName_of_toLower hopens

end Sql
