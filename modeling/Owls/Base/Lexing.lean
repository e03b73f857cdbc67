import Owls.Base.Sql

/-!
# The tokens of SQL texts

A text that is put together from pieces has the tokens of the pieces where each of them ends its
last token. Plain names, numbers and quoted texts.
-/

namespace Sql

/-! ## Names -/

def lower (s : String) : String := String.ofList (s.toList.map Char.toLower)

/-- The words that do not stand for a name. -/
def keywords : List String := reserved ++ ["true", "false"]

def opensName (c : Char) : Bool := c.isAlpha || c == '_'

def inName (c : Char) : Bool := c.isAlphanum || c == '_'

def isName (s : String) : Bool :=
  s.toList.head?.any opensName && s.toList.all inName && decide (lower s ∉ keywords)

/-- A plain name, as it is written. -/
structure Name where
  text : String
  plain : isName text = true

/-- The name as it is read. -/
def Name.read (n : Name) : String := lower n.text

/-! ## Tokens of a text -/

section Texts

variable {c d : Char} {cs ds acc : List Char} {ts us toks : List Token} {t : Token} {mode : Mode}

/-- The lexer with more tokens before its own. -/
def Lexer.behind (ts : List Token) (l : Lexer) : Lexer := { l with tokens := ts ++ l.tokens }

theorem first_behind (ts us : List Token) (c : Char) :
    first (ts ++ us) c = (first us c).behind ts := by
  unfold first
  simp only [apply_ite (Lexer.behind ts)]
  simp only [Lexer.behind, List.append_assoc]

theorem feed_behind (ts : List Token) (l : Lexer) (c : Char) :
    feed (l.behind ts) c = (feed l c).behind ts := by
  obtain ⟨mode, us⟩ := l
  cases mode <;> simp only [feed, Lexer.behind] <;> repeat' split
  all_goals first
    | rfl
    | simp only [List.append_assoc, first_behind, Lexer.behind]

theorem feedAll_behind (ts : List Token) (l : Lexer) (cs : List Char) :
    feedAll (l.behind ts) cs = (feedAll l cs).behind ts := by
  induction cs generalizing l with
  | nil => rfl
  | cons c cs ih =>
    have hcons (k : Lexer) : feedAll k (c :: cs) = feedAll (feed k c) cs := rfl
    rw [hcons, hcons, feed_behind, ih]

theorem feedAll_start (ts : List Token) (cs : List Char) :
    feedAll ⟨.start, ts⟩ cs = (feedAll {} cs).behind ts := by
  rw [← feedAll_behind, Lexer.behind, List.append_nil]

/-- The token that the next character may close. -/
def Mode.pending : Mode → Option (List Token)
  | .start => some []
  | .word acc => some [wordOf acc]
  | .number acc => some [.number (String.ofList acc)]
  | .closed acc => some [literalOf acc]
  | _ => none

/-- The text has these tokens, and no other token is begun at its end. -/
def Settled (cs : List Char) (toks : List Token) : Prop := feedAll {} cs = ⟨.start, toks⟩

/-- The text has these tokens, the last of which may go on with what follows. -/
def Lexes (cs : List Char) (toks : List Token) : Prop :=
  ∃ mode us p, feedAll {} cs = ⟨mode, us⟩ ∧ mode.pending = some p ∧ toks = us ++ p

instance (cs : List Char) (toks : List Token) : Decidable (Settled cs toks) :=
  inferInstanceAs (Decidable (_ = _))

def breaks (c : Char) : Bool := !inName c && !isSpace c && c != '\''

/-- The token that is pending ends where the text begins. -/
def endsToken : List Char → Bool
  | ' ' :: c :: _ => !isSpace c
  | c :: _ => breaks c
  | [] => false

/-- A text to stand between two others. -/
structure Separates (cs : List Char) (toks : List Token) : Prop where
  ends : endsToken cs = true
  settled : Settled cs toks

theorem Settled.lexes (h : Settled cs toks) : Lexes cs toks :=
  ⟨.start, toks, [], h, rfl, (List.append_nil toks).symm⟩

theorem Lexes.lex (h : Lexes cs toks) {s : String} (hs : s.toList = cs) : lex s = some toks := by
  obtain ⟨mode, us, p, hfeed, hpending, rfl⟩ := h
  rw [Sql.lex, hs, hfeed]
  cases mode with
  | start =>
    cases hpending
    rw [List.append_nil]
    rfl
  | word | number | closed =>
    cases hpending
    rfl
  | literal | gap | name | nameClosed | comparison | dash | lineComment | slash | comment
    | star => cases hpending

theorem feedAll_settled (h : Settled cs ts) (ds : List Char) :
    feedAll {} (cs ++ ds) = (feedAll {} ds).behind ts := by
  rw [feedAll_append, h, feedAll_start]

theorem Settled.append (h : Settled cs ts) (h' : Settled ds us) : Settled (cs ++ ds) (ts ++ us) := by
  rw [Settled, feedAll_settled h, h']
  rfl

theorem Settled.lexes_append (h : Settled cs ts) (h' : Lexes ds us) :
    Lexes (cs ++ ds) (ts ++ us) := by
  obtain ⟨mode, us, p, hfeed, hpending, rfl⟩ := h'
  exact ⟨mode, ts ++ us, p, by rw [feedAll_settled h, hfeed]; rfl, hpending,
    (List.append_assoc ..).symm⟩

theorem inName_of_isDigit (h : c.isDigit = true) : inName c = true := by
  simp [inName, Char.isAlphanum, h]

theorem feed_breaks {p : List Token} (hpending : mode.pending = some p) (h : breaks c = true) :
    feed ⟨mode, us⟩ c = feed ⟨.start, us ++ p⟩ c := by
  simp only [breaks, Bool.and_eq_true, Bool.not_eq_true', bne_iff_ne] at h
  obtain ⟨⟨hname, hspace⟩, hquote⟩ := h
  have hdigit : ¬ c.isDigit = true := fun hdigit => by simp [inName_of_isDigit hdigit] at hname
  have hname' : ¬ (c.isAlphanum || c == '_') = true := by simpa [inName] using hname
  cases mode with
  | start =>
    cases hpending
    rw [List.append_nil]
  | word acc =>
    cases hpending
    exact if_neg hname'
  | number acc =>
    cases hpending
    exact if_neg hdigit
  | closed acc =>
    cases hpending
    have hspace' : ¬ isSpace c = true := by simpa using hspace
    exact (if_neg hquote).trans (if_neg hspace')
  | literal | gap | name | nameClosed | comparison | dash | lineComment | slash | comment
    | star => cases hpending

theorem feed_space {p : List Token} (hpending : mode.pending = some p) (hspace : isSpace c = false) :
    feed (feed ⟨mode, us⟩ ' ') c = feed (feed ⟨.start, us ++ p⟩ ' ') c := by
  cases mode with
  | start =>
    cases hpending
    rw [List.append_nil]
  | word | number =>
    cases hpending
    rfl
  | closed acc =>
    cases hpending
    have hspace' : ¬ isSpace c = true := by simpa using hspace
    exact (if_neg hspace').trans (if_neg (by simp))
  | literal | gap | name | nameClosed | comparison | dash | lineComment | slash | comment
    | star => cases hpending

theorem feedAll_endsToken {p : List Token} (hpending : mode.pending = some p)
    (h : endsToken cs = true) : feedAll ⟨mode, us⟩ cs = feedAll ⟨.start, us ++ p⟩ cs := by
  unfold endsToken at h
  split at h
  · rename_i c cs
    exact congrArg (feedAll · cs) (feed_space hpending (by simpa using h))
  · rename_i c cs _
    exact congrArg (feedAll · cs) (feed_breaks hpending h)
  · cases h

theorem Lexes.separate (h : Lexes cs ts) (h' : Separates ds us) : Settled (cs ++ ds) (ts ++ us) := by
  obtain ⟨mode, ts, p, hfeed, hpending, rfl⟩ := h
  rw [Settled, feedAll_append, hfeed, feedAll_endsToken hpending h'.ends, feedAll_start, h'.settled]
  rfl

def join (t : Token) : List (List Token) → List Token
  | [] => []
  | [ts] => ts
  | ts :: tss => ts ++ t :: join t tss

theorem mem_join {sep : Token} {tss : List (List Token)} (h : t ∈ join sep tss) :
    t = sep ∨ ∃ ts ∈ tss, t ∈ ts := by
  induction tss with
  | nil => cases h
  | cons ts tss ih =>
    cases tss with
    | nil => exact .inr ⟨ts, List.mem_singleton_self _, h⟩
    | cons us uss =>
      rcases List.mem_append.mp h with h | h
      · exact .inr ⟨ts, List.mem_cons_self, h⟩
      · rcases List.mem_cons.mp h with h | h
        · exact .inl h
        · refine (ih h).imp_right ?_
          rintro ⟨vs, hvs, hin⟩
          exact ⟨vs, List.mem_cons_of_mem _ hvs, hin⟩

theorem length_le_join (t : Token) (tss : List (List Token)) (h : ∀ ts ∈ tss, ts ≠ []) :
    tss.length ≤ (join t tss).length := by
  induction tss with
  | nil => exact Nat.le_refl 0
  | cons ts tss ih =>
    rw [List.forall_mem_cons] at h
    have hpos := List.length_pos_iff.mpr h.1
    cases tss with
    | nil => exact hpos
    | cons us uss =>
      have hmore := ih h.2
      have hlength : (join t (ts :: us :: uss)).length =
          ts.length + ((join t (us :: uss)).length + 1) := by simp [join]
      rw [hlength, List.length_cons]
      omega

theorem lexes_join {sep : List Char} (hsep : Separates sep [t])
    (ps : List (List Char × List Token)) (h : ∀ p ∈ ps, Lexes p.1 p.2) (hne : ps ≠ []) :
    Lexes (sep.intercalate (ps.map (·.1))) (join t (ps.map (·.2))) := by
  induction ps with
  | nil => exact absurd rfl hne
  | cons p ps ih =>
    have hp := h p List.mem_cons_self
    cases ps with
    | nil => simpa [join] using hp
    | cons q qs =>
      have hmore := ih (fun r hr => h r (List.mem_cons_of_mem _ hr)) (List.cons_ne_nil _ _)
      have htext : sep.intercalate ((p :: q :: qs).map (·.1)) =
          (p.1 ++ sep) ++ sep.intercalate ((q :: qs).map (·.1)) := by
        simp [List.intercalate_cons_cons]
      have htokens : join t ((p :: q :: qs).map (·.2)) =
          (p.2 ++ [t]) ++ join t ((q :: qs).map (·.2)) := by
        simp [join]
      rw [htext, htokens]
      exact (hp.separate hsep).lexes_append hmore

/-! ### Names, numbers and literals -/

theorem not_isDigit_of_opensName (h : opensName c = true) : c.isDigit = false := by
  have hA : 'A'.val.toNat = 65 := rfl
  have hZ : 'Z'.val.toNat = 90 := rfl
  have ha : 'a'.val.toNat = 97 := rfl
  have hz : 'z'.val.toNat = 122 := rfl
  have h0 : '0'.val.toNat = 48 := rfl
  have h9 : '9'.val.toNat = 57 := rfl
  have halpha : c.isAlpha = (decide ('A'.val ≤ c.val ∧ c.val ≤ 'Z'.val) ||
      decide ('a'.val ≤ c.val) && decide (c.val ≤ 'z'.val)) := rfl
  have hdigit : c.isDigit = (decide ('0'.val ≤ c.val) && decide (c.val ≤ '9'.val)) := rfl
  simp only [opensName, Bool.or_eq_true, beq_iff_eq] at h
  rcases h with h | rfl
  · rw [hdigit]
    simp only [halpha, Bool.or_eq_true, Bool.and_eq_true, decide_eq_true_eq,
      UInt32.le_iff_toNat_le, Bool.and_eq_false_iff, decide_eq_false_iff_not] at h ⊢
    omega
  · decide

theorem feedAll_word (h : ∀ c ∈ cs, inName c = true) :
    feedAll ⟨.word acc, ts⟩ cs = ⟨.word (acc ++ cs), ts⟩ := by
  induction cs generalizing acc with
  | nil => rw [List.append_nil, feedAll, List.foldl_nil]
  | cons c cs ih =>
    rw [List.forall_mem_cons] at h
    have hfeed : feed ⟨.word acc, ts⟩ c = ⟨.word (acc ++ [c]), ts⟩ := if_pos h.1
    rw [feedAll, List.foldl_cons, hfeed, ← feedAll, ih h.2, List.append_assoc,
      List.singleton_append]

theorem feedAll_opensName (hc : opensName c = true) (hcs : ∀ d ∈ cs, inName d = true) :
    feedAll ⟨.start, ts⟩ (c :: cs) = ⟨.word (c :: cs), ts⟩ := by
  have hfeed : feed ⟨.start, ts⟩ c = ⟨.word [c], ts⟩ := by
    have hdigit := not_isDigit_of_opensName hc
    unfold opensName at hc
    simp only [feed, first, hdigit, hc, Bool.false_eq_true, if_false, if_true]
  rw [feedAll, List.foldl_cons, hfeed]
  exact feedAll_word hcs

variable {n : Name}

theorem Name.all_inName (n : Name) : ∀ c ∈ n.text.toList, inName c = true := by
  have h := n.plain
  simp only [isName, Bool.and_eq_true, List.all_eq_true] at h
  exact h.1.2

theorem Name.shape (n : Name) : ∃ c cs, n.text.toList = c :: cs ∧ opensName c = true ∧
    (∀ d ∈ cs, inName d = true) ∧ n.read ∉ keywords := by
  have h := n.plain
  simp only [isName, Bool.and_eq_true, List.all_eq_true, decide_eq_true_eq] at h
  obtain ⟨⟨hopens, hin⟩, hkeywords⟩ := h
  cases htext : n.text.toList with
  | nil => simp [htext] at hopens
  | cons c cs =>
    rw [htext] at hopens hin
    exact ⟨c, cs, rfl, hopens, fun d hd => hin d (List.mem_cons_of_mem _ hd), hkeywords⟩

theorem feedAll_name (n : Name) (ts : List Token) :
    feedAll ⟨.start, ts⟩ n.text.toList = ⟨.word n.text.toList, ts⟩ := by
  obtain ⟨c, cs, htext, hc, hcs, -⟩ := n.shape
  rw [htext]
  exact feedAll_opensName hc hcs

theorem lexes_name (n : Name) : Lexes n.text.toList [.word n.read] :=
  ⟨.word n.text.toList, [], [.word n.read], feedAll_name n [], rfl, rfl⟩

theorem Lexes.after (h : Lexes ds toks) (cs : List Char) (before : List Token)
    (hfeed : feedAll {} (cs ++ ds) = feedAll ⟨.start, before⟩ ds) :
    Lexes (cs ++ ds) (before ++ toks) := by
  obtain ⟨mode, us, p, hmore, hpending, rfl⟩ := h
  refine ⟨mode, before ++ us, p, ?_, hpending, (List.append_assoc ..).symm⟩
  rw [hfeed, feedAll_start, hmore]
  rfl

def doubled (cs : List Char) : List Char := cs.flatMap fun c => if c = '\'' then ['\'', '\''] else [c]

theorem lexes_literal (cs : List Char) : Lexes ('\'' :: (doubled cs ++ ['\''])) [literalOf cs] := by
  refine ⟨.closed cs, [], [literalOf cs], ?_, rfl, rfl⟩
  have hopen : feedAll {} ('\'' :: (doubled cs ++ ['\''])) =
      feedAll ⟨.literal [], []⟩ (doubled cs ++ ['\'']) := rfl
  rw [hopen, feedAll_append, doubled, feedAll_doubled, List.nil_append]
  rfl

theorem lexes_word (hc : opensName c = true) (hcs : ∀ d ∈ cs, inName d = true) :
    Lexes (c :: cs) [wordOf (c :: cs)] :=
  ⟨.word (c :: cs), [], _, feedAll_opensName hc hcs, rfl, rfl⟩

theorem lexes_digits (hne : cs ≠ []) (h : ∀ c ∈ cs, c.isDigit = true) :
    Lexes cs [.number (String.ofList cs)] := ⟨.number cs, [], _, feedAll_digits hne h, rfl, rfl⟩

theorem Lexes.minus (h : Lexes (c :: cs) toks) (hc : c.isDigit = true) :
    Lexes ('-' :: c :: cs) (.symbol "-" :: toks) := by
  refine h.after ['-'] [.symbol "-"] ?_
  have hdash : c ≠ '-' := by
    rintro rfl
    exact absurd hc (by decide)
  exact congrArg (feedAll · cs) (if_neg hdash)

theorem isDigit_repr (n : Nat) : ∀ c ∈ n.repr.toList, c.isDigit = true := by
  intro c hc
  rw [Nat.toList_repr] at hc
  exact Nat.isDigit_of_mem_toDigits (by decide) (by decide) hc

theorem repr_shape (n : Nat) : ∃ c cs, n.repr.toList = c :: cs ∧ c.isDigit = true := by
  have hdigits := isDigit_repr n
  cases hrepr : n.repr.toList with
  | nil =>
    rw [Nat.toList_repr] at hrepr
    exact absurd hrepr Nat.toDigits_ne_nil
  | cons c cs =>
    rw [hrepr] at hdigits
    exact ⟨c, cs, rfl, hdigits c List.mem_cons_self⟩

theorem lexes_repr (n : Nat) : Lexes n.repr.toList [.number n.repr] := by
  obtain ⟨c, cs, hrepr, -⟩ := repr_shape n
  have h := lexes_digits (hrepr ▸ List.cons_ne_nil c cs) (isDigit_repr n)
  rwa [String.ofList_toList] at h

theorem numberOf_repr (n : Nat) : numberOf n.repr = n := by
  rw [numberOf, Nat.toList_repr, Nat.ofDigitChars_ten_toDigits]

end Texts

end Sql
