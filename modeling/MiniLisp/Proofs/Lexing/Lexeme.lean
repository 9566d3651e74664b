import Mathlib.Data.List.TakeWhile
import MiniLisp.Lexeme
import MiniLisp.Proofs.Text.Decimal
import MiniLisp.Proofs.Text.Literal

/-!
# Lexemes and what follows them

A lexeme depends on its own characters and on the one after them, and on that one only as far as it
could go on with the lexeme. So a first lexeme stays the first when the text after it gives way to
one that lends it no more (`Lexeme.first?_of_lendsNoMore`): to nothing, to a delimiter, or to a text
that starts alike. Numbers, operators and identifiers are runs and need this; quotes, parentheses
and text literals end by themselves. What the lexemes of each class look like is
`Lexeme.WellSpelled`.
-/

namespace MiniLisp

/-- Whether a character may stand in a number, an operator or an identifier after the first. -/
def continuesLexeme (c : Char) : Bool :=
  Text.isDecimalDigit c || isOperatorChar c || isIdentifierChar c || c == '?' || c == '!'

/-- A text that lends nothing to a lexeme before it. -/
def Delimited (rest : List Char) : Prop := ∀ c ∈ rest.head?, continuesLexeme c = false

theorem delimited_nil : Delimited [] := by
  intro c hc
  cases hc

theorem delimited_cons {c : Char} (h : continuesLexeme c = false) (cs : List Char) :
    Delimited (c :: cs) := by
  intro d hd
  cases hd
  exact h

/-- A text that lends a lexeme before it no more than `rest` does: it starts like `rest`, or with a
character that continues no lexeme, or it is empty. -/
def LendsNoMore (rest' rest : List Char) : Prop :=
  ∀ c ∈ rest'.head?, c ∈ rest.head? ∨ continuesLexeme c = false

theorem Delimited.lendsNoMore {rest' : List Char} (h : Delimited rest') (rest : List Char) :
    LendsNoMore rest' rest := fun c hc => .inr (h c hc)

theorem takeWhile_eq_nil_iff_head? {p : Char → Bool} {cs : List Char} :
    cs.takeWhile p = [] ↔ ∀ c ∈ cs.head?, p c = false := by
  cases cs <;> simp [List.takeWhile_cons]

/-! ## The rest of an identifier -/

theorem identifierRest_eq_nil_iff {cs : List Char} : identifierRest cs = [] ↔
    ∀ c ∈ cs.head?, (isIdentifierChar c || c == '?' || c == '!') = false := by
  cases cs with
  | nil => simp [identifierRest]
  | cons c cs => by_cases hc : isIdentifierChar c <;> simp [identifierRest, hc]

theorem identifierRest_append_of_pos {cs : List Char} (h : ∀ c ∈ cs, isIdentifierChar c)
    (rest : List Char) : identifierRest (cs ++ rest) = cs ++ identifierRest rest := by
  simp only [identifierRest, List.takeWhile_append_of_pos h, List.dropWhile_append_of_pos h,
    List.append_assoc]

-- A word that ends within `cs` takes in nothing of what follows `cs`.
theorem identifierRest_append_of_neg {cs : List Char} (h : ¬ ∀ c ∈ cs, isIdentifierChar c)
    (rest : List Char) : identifierRest (cs ++ rest) = identifierRest cs := by
  have hne : cs.dropWhile isIdentifierChar ≠ [] := fun hnil => h (List.dropWhile_eq_nil_iff.1 hnil)
  have hshort : (cs.takeWhile isIdentifierChar).length ≠ cs.length := by
    intro hlen
    have hsplit := congrArg List.length (cs.takeWhile_append_dropWhile (p := isIdentifierChar))
    rw [List.length_append] at hsplit
    exact hne (List.length_eq_zero_iff.1 (by omega))
  unfold identifierRest
  rw [List.takeWhile_append, if_neg hshort, List.dropWhile_append, if_neg (by simpa using hne),
    List.take_append_of_le_length (List.length_pos_iff.2 hne)]

-- A sign that starts a number has a digit of the number after it.
theorem startsNumber_append {c : Char} {cs rest : List Char}
    (hrun : (cs ++ rest).takeWhile Text.isDecimalDigit = cs)
    (hc : (Text.isDecimalDigit c || (isSign c && (cs ++ rest).head?.any Text.isDecimalDigit)))
    (rest' : List Char) :
    (Text.isDecimalDigit c || (isSign c && (cs ++ rest').head?.any Text.isDecimalDigit)) := by
  cases cs with
  | cons d ds => exact hc
  | nil =>
    rw [List.nil_append, takeWhile_eq_nil_iff_head?] at hrun
    have hnone : rest.head?.any Text.isDecimalDigit = false := (Option.any_eq_false _ _).2 hrun
    rw [List.nil_append, hnone, Bool.and_false, Bool.or_false] at hc
    rw [hc, Bool.true_or]

/-! ## Runs before a text -/

namespace LendsNoMore

variable {rest rest' : List Char}

theorem append (h : LendsNoMore rest' rest) (cs : List Char) :
    LendsNoMore (cs ++ rest') (cs ++ rest) := by
  cases cs with
  | nil => exact h
  | cons c cs => exact fun d hd => .inl hd

-- What `rest` does not start with, `rest'` does not start with either.
theorem head?_eq_false (h : LendsNoMore rest' rest) {p : Char → Bool}
    (hp : ∀ c, p c → continuesLexeme c) (hrest : ∀ c ∈ rest.head?, p c = false) :
    ∀ c ∈ rest'.head?, p c = false := by
  intro c hc
  rcases h c hc with hsame | hstop
  · exact hrest c hsame
  · exact Bool.eq_false_iff.2 fun hpc => by simpa [hstop] using hp c hpc

-- A run that ends before `rest` ends before `rest'`.
theorem takeWhile_append (h : LendsNoMore rest' rest) {p : Char → Bool}
    (hp : ∀ c, p c → continuesLexeme c) {cs : List Char} (hcs : (cs ++ rest).takeWhile p = cs) :
    (cs ++ rest').takeWhile p = cs := by
  have hall : ∀ c ∈ cs, p c := by
    intro c hc
    rw [← hcs] at hc
    exact List.mem_takeWhile_imp hc
  rw [List.takeWhile_append_of_pos hall, List.append_right_eq_self,
    takeWhile_eq_nil_iff_head?] at hcs ⊢
  exact h.head?_eq_false hp hcs

-- A sign before `rest'` starts no number if it starts none before `rest`.
theorem startsNumber_eq_false (h : LendsNoMore rest' rest) {c : Char}
    (hc : (Text.isDecimalDigit c || (isSign c && rest.head?.any Text.isDecimalDigit)) = false) :
    (Text.isDecimalDigit c || (isSign c && rest'.head?.any Text.isDecimalDigit)) = false := by
  rw [Bool.or_eq_false_iff, Bool.and_eq_false_imp] at hc ⊢
  refine ⟨hc.1, fun hsign => ?_⟩
  refine (Option.any_eq_false _ _).2 (h.head?_eq_false (fun d hd => ?_) ?_)
  · simp [continuesLexeme, hd]
  · exact (Option.any_eq_false _ _).1 (hc.2 hsign)

theorem identifierRest_append (h : LendsNoMore rest' rest) {cs : List Char}
    (hcs : identifierRest (cs ++ rest) = cs) : identifierRest (cs ++ rest') = cs := by
  by_cases hall : ∀ c ∈ cs, isIdentifierChar c
  · rw [identifierRest_append_of_pos hall, List.append_right_eq_self,
      identifierRest_eq_nil_iff] at hcs ⊢
    refine h.head?_eq_false (fun c hc => ?_) hcs
    simp only [Bool.or_eq_true] at hc
    rcases hc with (hc | hc) | hc <;> simp [continuesLexeme, hc]
  · rwa [identifierRest_append_of_neg hall] at hcs ⊢

end LendsNoMore

/-! ## Text literals -/

theorem literalBody?_cons {c : Char} (hq : c ≠ '"') (hb : c ≠ '\\') (cs : List Char) :
    literalBody? (c :: cs) = (literalBody? cs).map (c :: ·) := by
  rw [literalBody?] <;> simp_all

-- A character that starts no escape, whether whole or cut off, is no backslash.
theorem ne_backslash_of_not_pair {c : Char} {cs : List Char} (hlone : c = '\\' → cs = [] → False)
    (hpair : ∀ d ds, c = '\\' → cs = d :: ds → False) : c ≠ '\\' := by
  intro hc
  cases cs with
  | nil => exact hlone hc rfl
  | cons d ds => exact hpair d ds hc rfl

-- The body of a literal ends at its double quote, whatever follows that.
theorem literalBody?_body_append {cs body : List Char} (h : literalBody? cs = some body)
    (rest : List Char) : literalBody? (body ++ '"' :: rest) = some body := by
  fun_induction literalBody? cs generalizing body with
  | case1 => cases h
  | case2 cs =>
    cases h
    rw [List.nil_append, literalBody?]
  | case3 => cases h
  | case4 c cs ih =>
    obtain ⟨b, hb, rfl⟩ := Option.map_eq_some_iff.1 h
    rw [List.cons_append, List.cons_append, literalBody?, ih hb]
    rfl
  | case5 c cs hq hlone hpair ih =>
    obtain ⟨b, hb, rfl⟩ := Option.map_eq_some_iff.1 h
    have hslash := ne_backslash_of_not_pair hlone hpair
    rw [List.cons_append, literalBody?_cons hq hslash, ih hb]
    rfl

theorem literalBody?_append_of_plain {ds : List Char} (h : ∀ d ∈ ds, d ≠ '"' ∧ d ≠ '\\')
    (cs : List Char) : literalBody? (ds ++ cs) = (literalBody? cs).map (ds ++ ·) := by
  induction ds with
  | nil => simp
  | cons d ds ih =>
    have hd := h d (by simp)
    rw [List.cons_append, literalBody?_cons hd.1 hd.2, ih fun e he => h e (by simp [he]),
      Option.map_map]
    rfl

theorem literalBody?_encodeChar_append (c : Char) (cs : List Char) :
    literalBody? (Text.encodeChar c ++ cs) = (literalBody? cs).map (Text.encodeChar c ++ ·) := by
  unfold Text.encodeChar
  split
  · rfl
  · rename_i hletter
    split
    · have hc := Text.ne_marks_of_escapeLetter? hletter
      exact literalBody?_cons hc.1 hc.2 cs
    · have hplain : ∀ d ∈ '\x7b' :: Text.hexDigits c.toNat ++ ['\x7d'], d ≠ '"' ∧ d ≠ '\\' := by
        intro d hd
        simp only [List.cons_append, List.mem_cons, List.mem_append, List.not_mem_nil,
          or_false] at hd
        rcases hd with rfl | hd | rfl
        · decide
        · have hhex := Text.isHexDigit_of_mem_hexDigits hd
          constructor <;> rintro rfl <;> exact absurd hhex (by decide)
        · decide
      simp only [List.cons_append, List.append_assoc]
      rw [literalBody?]
      -- What follows the backslash and its letter is plain up to the closing brace.
      have hbody := literalBody?_append_of_plain hplain cs
      simp only [List.cons_append, List.append_assoc] at hbody
      rw [hbody, Option.map_map]
      rfl

-- The double quote that ends a literal is the first one that no backslash escapes.
theorem literalBody?_encode (cs rest : List Char) :
    literalBody? (Text.encode cs ++ '"' :: rest) = some (Text.encode cs) := by
  induction cs with
  | nil => rw [Text.encode, List.flatMap_nil, List.nil_append, literalBody?]
  | cons c cs ih =>
    rw [Text.encode, List.flatMap_cons, List.append_assoc, literalBody?_encodeChar_append,
      ← Text.encode, ih]
    rfl

/-! ## Characters that start a lexeme -/

theorem toNat_lt_of_isIdentifierStart {c : Char} (h : isIdentifierStart c) : c.toNat < 128 := by
  change ((decide ('A'.val ≤ c.val ∧ c.val ≤ 'Z'.val) ||
    ('a'.val ≤ c.val && c.val ≤ 'z'.val)) || c == '_') = true at h
  simp only [Bool.or_eq_true, Bool.and_eq_true, decide_eq_true_eq, beq_iff_eq,
    UInt32.le_iff_toNat_le] at h
  rcases h with (h | h) | rfl
  · exact Nat.lt_of_le_of_lt h.2 (by decide)
  · exact Nat.lt_of_le_of_lt h.2 (by decide)
  · decide

theorem toNat_lt_of_isOperatorChar {c : Char} (h : isOperatorChar c) : c.toNat < 128 := by
  have hmem : c ∈ "<>+-*/%=".toList := List.elem_iff.1 h
  have hall : "<>+-*/%=".toList.all (·.toNat < 128) := by decide
  exact of_decide_eq_true (List.all_eq_true.1 hall c hmem)

@[elab_as_elim]
theorem forall_ascii {P : Char → Prop} (h : ∀ n < 128, P (Char.ofNat n)) {c : Char}
    (hc : c.toNat < 128) : P c := by
  have hn := h c.toNat hc
  rwa [Char.ofNat_toNat] at hn

-- The classes tried before identifiers do not start with a letter or an underscore.
theorem isIdentifierStart_excludes {c : Char} (h : isIdentifierStart c) :
    c ≠ '\'' ∧ c ≠ '(' ∧ c ≠ ')' ∧ c ≠ '"' ∧ Text.isDecimalDigit c = false ∧ isSign c = false ∧
      isOperatorChar c = false ∧ Text.isBlank c = false ∧ c ≠ ';' := by
  have hc := toNat_lt_of_isIdentifierStart h
  revert h
  exact forall_ascii (by decide +kernel) hc

-- The classes tried before operators do not start with an operator character, save for signs.
theorem isOperatorChar_excludes {c : Char} (h : isOperatorChar c) :
    c ≠ '\'' ∧ c ≠ '(' ∧ c ≠ ')' ∧ c ≠ '"' ∧ Text.isDecimalDigit c = false ∧
      Text.isBlank c = false ∧ c ≠ ';' := by
  have hc := toNat_lt_of_isOperatorChar h
  revert h
  exact forall_ascii (by decide +kernel) hc

-- A blank ends every lexeme that stands before it.
theorem continuesLexeme_eq_false_of_isBlank {c : Char} (h : Text.isBlank c) :
    continuesLexeme c = false := by
  rw [Bool.eq_false_iff]
  intro hc
  have hblank : Text.isBlank c = false := by
    simp only [continuesLexeme, isIdentifierChar, Char.isAlphanum, Bool.or_eq_true,
      beq_iff_eq] at hc
    rcases hc with (((hdigit | hoperator) | ((hletter | hdigit) | rfl)) | rfl) | rfl
    · exact Text.isBlank_eq_false_of_isDecimalDigit hdigit
    · obtain ⟨-, -, -, -, -, hblank, -⟩ := isOperatorChar_excludes hoperator
      exact hblank
    · have hstart : isIdentifierStart c := by simp [isIdentifierStart, hletter]
      obtain ⟨-, -, -, -, -, -, -, hblank, -⟩ := isIdentifierStart_excludes hstart
      exact hblank
    · exact Text.isBlank_eq_false_of_isDecimalDigit (Text.isDecimalDigit_of_isDigit hdigit)
    · decide
    · decide
    · decide
  rw [hblank] at h
  cases h

-- No gap starts where a lexeme does.
theorem gapLength_eq_zero_of_first? {cs : List Char} {l : Lexeme}
    (h : Lexeme.first? cs = some l) : gapLength false cs = 0 := by
  rcases cs with _ | ⟨c, cs⟩
  · rfl
  have hc : Text.isBlank c = false ∧ c ≠ ';' := by
    dsimp only [Lexeme.first?] at h
    split at h
    · subst_vars; decide
    split at h
    · subst_vars; decide
    split at h
    · subst_vars; decide
    split at h
    · subst_vars; decide
    split at h
    · rename_i hnumber
      simp only [Bool.or_eq_true, Bool.and_eq_true, isSign, beq_iff_eq] at hnumber
      rcases hnumber with hdigit | ⟨rfl | rfl, -⟩
      · refine ⟨Text.isBlank_eq_false_of_isDecimalDigit hdigit, ?_⟩
        rintro rfl
        exact absurd hdigit (by decide)
      · decide
      · decide
    split at h
    · rename_i hoperator
      obtain ⟨-, -, -, -, -, hc⟩ := isOperatorChar_excludes hoperator
      exact hc
    split at h
    · rename_i hstart
      obtain ⟨-, -, -, -, -, -, -, hc⟩ := isIdentifierStart_excludes hstart
      exact hc
    · cases h
  simp [gapLength, hc]

/-! ## The first lexeme -/

/-- A letter or an underscore, then letters, digits and underscores, then at most one `?` or
`!`. -/
def IsIdentifier (cs : List Char) : Prop :=
  ∃ c word ending, cs = c :: word ++ ending ∧ isIdentifierStart c ∧
    (∀ d ∈ word, isIdentifierChar d) ∧ (ending = [] ∨ ending = ['?'] ∨ ending = ['!'])

/-- One or more operator characters. -/
def IsOperator (cs : List Char) : Prop := cs ≠ [] ∧ ∀ c ∈ cs, isOperatorChar c

/-- An optional sign and one or more decimal digits, of any script. -/
def IsNumeral (cs : List Char) : Prop :=
  ∃ c ds, cs = c :: ds ∧ (Text.isDecimalDigit c ∨ isSign c ∧ ds ≠ []) ∧
    ∀ d ∈ ds, Text.isDecimalDigit d

/-- A body between double quotes that ends at the second of them. -/
def IsLiteral (cs : List Char) : Prop :=
  ∃ body, cs = '"' :: body ++ ['"'] ∧ literalBody? (body ++ ['"']) = some body

/-- The characters of a lexeme are as its class has them. -/
def Lexeme.WellSpelled (l : Lexeme) : Prop :=
  match l.cls with
  | .quote => l.chars = ['\'']
  | .openParen => l.chars = ['(']
  | .closeParen => l.chars = [')']
  | .text => IsLiteral l.chars
  | .number => IsNumeral l.chars
  | .operator => IsOperator l.chars
  | .identifier => IsIdentifier l.chars

theorem isIdentifier_identifierRest {c : Char} (h : isIdentifierStart c) (cs : List Char) :
    IsIdentifier (c :: identifierRest cs) := by
  refine ⟨c, cs.takeWhile isIdentifierChar, _, rfl, h, fun d hd => List.mem_takeWhile_imp hd, ?_⟩
  rcases cs.dropWhile isIdentifierChar with _ | ⟨d, rest⟩
  · exact .inl rfl
  by_cases hask : d = '?'
  · exact .inr (.inl (by simp [hask]))
  by_cases hbang : d = '!'
  · exact .inr (.inr (by simp [hbang]))
  · exact .inl (by simp [hask, hbang])

namespace Lexeme

theorem wellSpelled_of_first? {cs : List Char} {l : Lexeme} (h : first? cs = some l) :
    l.WellSpelled := by
  rcases cs with _ | ⟨c, cs⟩
  · cases h
  dsimp only [first?] at h
  split at h
  · subst_vars
    cases h
    rfl
  split at h
  · subst_vars
    cases h
    rfl
  split at h
  · subst_vars
    cases h
    rfl
  split at h
  · obtain ⟨body, hbody, rfl⟩ := Option.map_eq_some_iff.1 h
    subst_vars
    exact ⟨body, rfl, literalBody?_body_append hbody []⟩
  split at h
  · rename_i hstart
    cases h
    refine ⟨c, _, rfl, ?_, fun d hd => List.mem_takeWhile_imp hd⟩
    rw [Bool.or_eq_true, Bool.and_eq_true] at hstart
    refine hstart.imp_right fun hsign => ⟨hsign.1, fun hnil => ?_⟩
    rw [takeWhile_eq_nil_iff_head?] at hnil
    have hnone := (Option.any_eq_false _ _).2 hnil
    rw [hnone] at hsign
    cases hsign.2
  split at h
  · cases h
    exact ⟨by simp, List.forall_mem_cons.2 ⟨‹_›, fun d hd => List.mem_takeWhile_imp hd⟩⟩
  split at h
  · cases h
    exact isIdentifier_identifierRest ‹_› cs
  · cases h

/-- A first lexeme stays the first one when a text that lends it no more takes the place of what
follows it. -/
theorem first?_of_lendsNoMore {l : Lexeme} {rest rest' : List Char}
    (h : first? (l.chars ++ rest) = some l) (hr : LendsNoMore rest' rest) :
    first? (l.chars ++ rest') = some l := by
  obtain ⟨cls, chars, hne⟩ := l
  dsimp only at h ⊢
  rcases chars with _ | ⟨c, cs⟩
  · exact absurd rfl hne
  dsimp only [first?, List.cons_append] at h ⊢
  -- The classes are tried in the same order before `rest` and before `rest'`.
  split at h
  · cases h; rw [if_pos ‹_›]
  rw [if_neg ‹_›]
  split at h
  · cases h; rw [if_pos ‹_›]
  rw [if_neg ‹_›]
  split at h
  · cases h; rw [if_pos ‹_›]
  rw [if_neg ‹_›]
  split at h
  · obtain ⟨body, hbody, hl⟩ := Option.map_eq_some_iff.1 h
    cases hl
    rw [if_pos ‹_›, List.append_assoc, List.singleton_append, literalBody?_body_append hbody]
    rfl
  rw [if_neg ‹_›]
  split at h
  · have hrun : (cs ++ rest).takeWhile Text.isDecimalDigit = cs := by injection h with h; simp_all
    have hrun' := hr.takeWhile_append (fun d hd => by simp [continuesLexeme, hd]) hrun
    rw [if_pos (startsNumber_append hrun ‹_› rest'), ← h]
    simp only [hrun, hrun']
  have hstart := (hr.append cs).startsNumber_eq_false (Bool.eq_false_iff.2 ‹_›)
  rw [if_neg (Bool.eq_false_iff.1 hstart)]
  split at h
  · have hrun : (cs ++ rest).takeWhile isOperatorChar = cs := by injection h with h; simp_all
    have hrun' := hr.takeWhile_append (fun d hd => by simp [continuesLexeme, hd]) hrun
    rw [if_pos ‹_›, ← h]
    simp only [hrun, hrun']
  rw [if_neg ‹_›]
  split at h
  · have hrun : identifierRest (cs ++ rest) = cs := by injection h with h; simp_all
    rw [if_pos ‹_›, ← h]
    simp only [hrun, hr.identifierRest_append hrun]
  · cases h

-- Only of a double quote does it depend on what follows whether a lexeme starts with it.
theorem first?_eq_none_of_ne {c : Char} {cs : List Char} (hc : c ≠ '"')
    (h : first? (c :: cs) = none) (ds : List Char) : first? (c :: ds) = none := by
  dsimp only [first?] at h ⊢
  split at h
  · cases h
  rw [if_neg ‹_›]
  split at h
  · cases h
  rw [if_neg ‹_›]
  split at h
  · cases h
  rw [if_neg ‹_›, if_neg hc]
  split at h
  · cases h
  rename_i hnumber
  split at h
  · cases h
  rename_i hoperator
  split at h
  · cases h
  rename_i hidentifier
  -- A sign that starts no number would start an operator.
  have hsign : isSign c = false := by
    rw [Bool.eq_false_iff]
    intro hsign
    simp only [isSign, Bool.or_eq_true, beq_iff_eq] at hsign
    rcases hsign with rfl | rfl <;> exact hoperator (by decide)
  have hdigit : Text.isDecimalDigit c = false := by
    rw [Bool.or_eq_true, not_or] at hnumber
    exact Bool.eq_false_iff.2 hnumber.1
  rw [hdigit, hsign, Bool.false_and, Bool.false_or, if_neg Bool.false_ne_true,
    if_neg hoperator, if_neg hidentifier]

/-- A lexeme that is all of a text is still the first one before a delimiter. -/
theorem first?_append {l : Lexeme} (h : first? l.chars = some l) {rest : List Char}
    (hr : Delimited rest) : first? (l.chars ++ rest) = some l := by
  rw [← List.append_nil l.chars] at h
  exact first?_of_lendsNoMore h (hr.lendsNoMore [])

end Lexeme

end MiniLisp
