import MiniLisp.Proofs.Lexing.Lexeme

/-!
# Longest match

Of the words of its class that a text starts with, a lexeme is the longest. Only operators and
numbers can start alike, and then a sign before a digit makes the number. Together this says which
lexeme a text starts with, from what the words of each class look like
(`Lexeme.first?_eq_some_iff`), and that there is none only where no word of any class starts
(`Lexeme.first?_eq_none_iff`).
-/

namespace MiniLisp.Lexeme

attribute [ext] Lexeme

instance : DecidableEq Lexeme := fun _ _ => decidable_of_iff _ Lexeme.ext_iff.symm

variable {cs : List Char} {l t : Lexeme}

/-! ## What starts a lexeme of each class -/

-- The first character of a numeral starts a number, whatever follows the numeral.
theorem startsNumber_of_numeral {c : Char} {ds : List Char}
    (hc : Text.isDecimalDigit c ∨ isSign c ∧ ds ≠ []) (hds : ∀ d ∈ ds, Text.isDecimalDigit d)
    (rest : List Char) :
    (Text.isDecimalDigit c || (isSign c && (ds ++ rest).head?.any Text.isDecimalDigit)) := by
  rcases hc with hdigit | ⟨hsign, hnil⟩
  · rw [hdigit, Bool.true_or]
  · obtain ⟨d, ds, rfl⟩ := List.exists_cons_of_ne_nil hnil
    simp [hsign, hds d (by simp)]

-- A digit starts a number, and so does a sign before one.
theorem first?_of_startsNumber {c : Char}
    (h : (Text.isDecimalDigit c || (isSign c && cs.head?.any Text.isDecimalDigit))) :
    first? (c :: cs) = some ⟨.number, c :: cs.takeWhile Text.isDecimalDigit, by simp⟩ := by
  have hstart : Text.isDecimalDigit c ∨ isSign c := by
    rw [Bool.or_eq_true, Bool.and_eq_true] at h
    exact h.imp_right And.left
  have hmarks : c ≠ '\'' ∧ c ≠ '(' ∧ c ≠ ')' ∧ c ≠ '"' := by
    refine ⟨?_, ?_, ?_, ?_⟩ <;> rintro rfl <;> exact absurd hstart (by decide)
  simp only [first?, hmarks, h, if_false, if_true]

theorem first?_of_startsOperator {c : Char} (hc : isOperatorChar c)
    (h : (isSign c && cs.head?.any Text.isDecimalDigit) = false) :
    first? (c :: cs) = some ⟨.operator, c :: cs.takeWhile isOperatorChar, by simp⟩ := by
  obtain ⟨hquote, hopen, hclose, hmark, hdigit, -⟩ := isOperatorChar_excludes hc
  simp [first?, hquote, hopen, hclose, hmark, hdigit, h, hc]

theorem first?_of_startsIdentifier {c : Char} (hc : isIdentifierStart c) (cs : List Char) :
    first? (c :: cs) = some ⟨.identifier, c :: identifierRest cs, by simp⟩ := by
  obtain ⟨hquote, hopen, hclose, hmark, hdigit, hsign, hoperator, -⟩ :=
    isIdentifierStart_excludes hc
  simp [first?, hquote, hopen, hclose, hmark, hdigit, hsign, hoperator, hc]

theorem first?_of_literalBody? {body : List Char} (h : literalBody? cs = some body) :
    first? ('"' :: cs) = some ⟨.text, '"' :: body ++ ['"'], by simp⟩ := by
  simp [first?, h]

/-! ## Words at the start of a text -/

theorem isPrefix_takeWhile_append {p : Char → Bool} {ds : List Char} (h : ∀ d ∈ ds, p d)
    (rest : List Char) : ds <+: (ds ++ rest).takeWhile p := by
  rw [List.takeWhile_append_of_pos h]
  exact List.prefix_append ds _

-- A word of identifier characters takes in one question or exclamation mark after it.
theorem isPrefix_identifierRest {word ending : List Char} (hword : ∀ d ∈ word, isIdentifierChar d)
    (hending : ending = [] ∨ ending = ['?'] ∨ ending = ['!']) (rest : List Char) :
    word ++ ending <+: identifierRest (word ++ (ending ++ rest)) := by
  rw [identifierRest_append_of_pos hword]
  refine (List.prefix_append_right_inj word).2 ?_
  rcases hending with rfl | rfl | rfl
  · exact List.nil_prefix
  · simp [identifierRest, show isIdentifierChar '?' = false by decide]
  · simp [identifierRest, show isIdentifierChar '!' = false by decide]

/-- Where a word stands a lexeme starts: one of the class of the word that goes at least as far, or
a number in place of an operator. -/
theorem exists_first?_of_isPrefix (h : l.WellSpelled) (hcs : l.chars <+: cs) :
    ∃ t, first? cs = some t ∧
      (t.cls = l.cls ∧ l.chars <+: t.chars ∨ t.cls = .number ∧ l.cls = .operator) := by
  obtain ⟨cls, chars, hne⟩ := l
  obtain ⟨rest, rfl⟩ := hcs
  dsimp only at hne ⊢
  cases cls with
  | quote =>
    obtain rfl : chars = ['\''] := h
    exact ⟨_, rfl, .inl ⟨rfl, List.prefix_rfl⟩⟩
  | openParen =>
    obtain rfl : chars = ['('] := h
    exact ⟨_, rfl, .inl ⟨rfl, List.prefix_rfl⟩⟩
  | closeParen =>
    obtain rfl : chars = [')'] := h
    exact ⟨_, rfl, .inl ⟨rfl, List.prefix_rfl⟩⟩
  | text =>
    obtain ⟨body, rfl, hbody⟩ := h
    have hliteral := literalBody?_body_append hbody rest
    rw [List.append_assoc, List.singleton_append, List.cons_append]
    exact ⟨_, first?_of_literalBody? hliteral, .inl ⟨rfl, List.prefix_rfl⟩⟩
  | number =>
    obtain ⟨c, ds, rfl, hc, hds⟩ := h
    refine ⟨_, first?_of_startsNumber (startsNumber_of_numeral hc hds rest),
      .inl ⟨rfl, List.cons_prefix_cons.2 ⟨rfl, ?_⟩⟩⟩
    exact isPrefix_takeWhile_append hds rest
  | operator =>
    obtain ⟨c, ds, rfl⟩ := List.exists_cons_of_ne_nil hne
    have hc := h.2 c List.mem_cons_self
    have hds : ∀ d ∈ ds, isOperatorChar d := fun d hd => h.2 d (List.mem_cons_of_mem c hd)
    cases hstart : isSign c && (ds ++ rest).head?.any Text.isDecimalDigit with
    | true =>
      have hnumber := first?_of_startsNumber (c := c) (by rw [hstart, Bool.or_true])
      exact ⟨_, hnumber, .inr ⟨rfl, rfl⟩⟩
    | false =>
      refine ⟨_, first?_of_startsOperator hc hstart, .inl ⟨rfl, List.cons_prefix_cons.2 ⟨rfl, ?_⟩⟩⟩
      exact isPrefix_takeWhile_append hds rest
  | identifier =>
    obtain ⟨c, word, ending, rfl, hc, hword, hending⟩ := h
    rw [List.append_assoc, List.cons_append]
    refine ⟨_, first?_of_startsIdentifier hc _, .inl ⟨rfl, ?_⟩⟩
    exact List.cons_prefix_cons.2 ⟨rfl, isPrefix_identifierRest hword hending rest⟩

theorem first?_eq_none_iff : first? cs = none ↔ ∀ l : Lexeme, l.WellSpelled → ¬ l.chars <+: cs := by
  constructor
  · intro h l hl hcs
    obtain ⟨t, ht, -⟩ := exists_first?_of_isPrefix hl hcs
    rw [h] at ht
    cases ht
  · intro h
    cases hfirst : first? cs with
    | none => rfl
    | some t => exact absurd (first?_isPrefix hfirst) (h t (wellSpelled_of_first? hfirst))

/-! ## The first lexeme -/

/-- What a lexeme is that a text starts with: the longest word of its class there, and a number
where a sign stands directly before a digit. -/
structure IsFirst (t : Lexeme) (cs : List Char) : Prop where
  wellSpelled : t.WellSpelled
  isPrefix : t.chars <+: cs
  longest {l : Lexeme} (hl : l.WellSpelled) (hcs : l.chars <+: cs) (hcls : l.cls = t.cls) :
    l.chars <+: t.chars
  signed {c d : Char} {ds : List Char} (hcs : cs = c :: d :: ds) (hc : isSign c)
    (hd : Text.isDecimalDigit d) : t.cls = .number

theorem isFirst_of_first? (h : first? cs = some t) : t.IsFirst cs where
  wellSpelled := wellSpelled_of_first? h
  isPrefix := first?_isPrefix h
  longest hl hcs hcls := by
    obtain ⟨t', ht', ⟨-, hprefix⟩ | ⟨hnumber, hoperator⟩⟩ := exists_first?_of_isPrefix hl hcs <;>
      obtain rfl := Option.some.inj (h.symm.trans ht')
    · exact hprefix
    · rw [hcls, hnumber] at hoperator
      cases hoperator
  signed {c d ds} hcs hc hd := by
    have hstart : (Text.isDecimalDigit c ||
        (isSign c && (d :: ds).head?.any Text.isDecimalDigit)) := by simp [hc, hd]
    rw [hcs, first?_of_startsNumber hstart] at h
    cases h
    rfl

-- A number and an operator that start alike start with a sign before a digit.
theorem exists_sign_digit (ht : t.WellSpelled) (htcls : t.cls = .number) (htcs : t.chars <+: cs)
    (hl : l.WellSpelled) (hlcls : l.cls = .operator) (hlcs : l.chars <+: cs) :
    ∃ c d ds, cs = c :: d :: ds ∧ isSign c ∧ Text.isDecimalDigit d := by
  rw [WellSpelled, htcls] at ht
  rw [WellSpelled, hlcls] at hl
  obtain ⟨c, ds, hchars, hc, hds⟩ := ht
  obtain ⟨c', ops, hops⟩ := List.exists_cons_of_ne_nil l.chars_ne_nil
  obtain ⟨rest, rfl⟩ := htcs
  rw [hchars, hops, List.cons_append] at hlcs
  obtain ⟨rfl, -⟩ := List.cons_prefix_cons.1 hlcs
  have hoperator : isOperatorChar c' := hl.2 c' (by rw [hops]; exact List.mem_cons_self)
  obtain ⟨-, -, -, -, hdigit, -⟩ := isOperatorChar_excludes hoperator
  rcases hc with hc | ⟨hsign, hnil⟩
  · rw [hdigit] at hc
    cases hc
  · obtain ⟨d, ds, rfl⟩ := List.exists_cons_of_ne_nil hnil
    refine ⟨c', d, ds ++ rest, ?_, hsign, hds d List.mem_cons_self⟩
    rw [hchars]
    rfl

/-- The words of each class determine which lexeme a text starts with. -/
theorem first?_eq_some_iff : first? cs = some t ↔ t.IsFirst cs := by
  refine ⟨isFirst_of_first?, fun h => ?_⟩
  obtain ⟨t', ht', ⟨hcls, hprefix⟩ | ⟨hnumber, hoperator⟩⟩ :=
    exists_first?_of_isPrefix h.wellSpelled h.isPrefix
  · have hback := h.longest (wellSpelled_of_first? ht') (first?_isPrefix ht') hcls
    have hchars := hback.eq_of_length_le hprefix.length_le
    rw [ht', Lexeme.ext hcls hchars]
  · obtain ⟨c, d, ds, hcs, hc, hd⟩ := exists_sign_digit (wellSpelled_of_first? ht') hnumber
      (first?_isPrefix ht') h.wellSpelled hoperator h.isPrefix
    have hcls := h.signed hcs hc hd
    rw [hoperator] at hcls
    cases hcls

/-- A word of a class that stands alone is a lexeme. -/
theorem first?_of_wellSpelled (h : l.WellSpelled) : first? l.chars = some l := by
  obtain ⟨t, ht, ⟨hcls, hprefix⟩ | ⟨hnumber, hoperator⟩⟩ :=
    exists_first?_of_isPrefix h List.prefix_rfl
  · have hchars := (first?_isPrefix ht).eq_of_length_le hprefix.length_le
    rw [ht, Lexeme.ext hcls hchars]
  · obtain ⟨c, d, ds, hchars, -, hdigit⟩ := exists_sign_digit (wellSpelled_of_first? ht) hnumber
      (first?_isPrefix ht) h hoperator List.prefix_rfl
    -- No operator has a digit.
    rw [WellSpelled, hoperator] at h
    have hd : isOperatorChar d := h.2 d (by simp [hchars])
    obtain ⟨-, -, -, -, hnone, -⟩ := isOperatorChar_excludes hd
    rw [hnone] at hdigit
    cases hdigit

end MiniLisp.Lexeme
