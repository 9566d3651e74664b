import MiniLisp.Text.Blank
import MiniLisp.Text.Decimal

/-!
Lexemes: the words that source text starts with. Blanks and comments belong to none. A lexeme is
what the text starts with (`Lexeme.first?_isPrefix`), as long as its class allows.
-/

namespace MiniLisp

inductive TokenClass where
  | quote
  | openParen
  | closeParen
  | text
  | number
  | operator
  | identifier
deriving DecidableEq

/-! ## Blanks -/

/-- The length of the run of blanks and comments at the start of a text. A comment runs from a
semicolon to the end of its line; `inComment` tells whether the text starts inside one. -/
def gapLength (inComment : Bool) : List Char → Nat
  | [] => 0
  | c :: cs =>
    if inComment then gapLength (c ≠ '\n') cs + 1
    else if Text.isBlank c then gapLength false cs + 1
    else if c = ';' then gapLength true cs + 1
    else 0

/-- The position in a text after any blanks and comments that start at `position`. -/
def skipGap (source : List Char) (position : Nat) : Nat :=
  min position source.length + gapLength false (source.drop position)

theorem gapLength_le (inComment : Bool) (cs : List Char) :
    gapLength inComment cs ≤ cs.length := by
  induction cs generalizing inComment with
  | nil => simp [gapLength]
  | cons c cs ih =>
    have h₁ := ih false
    have h₂ := ih true
    have h₃ := ih (c ≠ '\n')
    simp only [gapLength, List.length_cons]
    split
    · omega
    · split
      · omega
      · split <;> omega

/-! ## Lexemes -/

structure Lexeme where
  cls : TokenClass
  chars : List Char
  chars_ne_nil : chars ≠ []

def isSign (c : Char) : Bool := c == '+' || c == '-'

def isOperatorChar (c : Char) : Bool := "<>+-*/%=".toList.contains c

/-- Identifiers start with an ASCII letter or an underscore. -/
def isIdentifierStart (c : Char) : Bool := c.isAlpha || c == '_'

def isIdentifierChar (c : Char) : Bool := c.isAlphanum || c == '_'

/-- The body of a text literal, up to the first double quote that no backslash escapes; `none` if
there is no such quote. -/
def literalBody? : List Char → Option (List Char)
  | [] => none
  | '"' :: _ => some []
  | ['\\'] => none
  | '\\' :: c :: cs => (literalBody? cs).map ('\\' :: c :: ·)
  | c :: cs => (literalBody? cs).map (c :: ·)

/-- The rest of an identifier: letters, digits and underscores, then at most one `?` or `!`. -/
def identifierRest (cs : List Char) : List Char :=
  cs.takeWhile isIdentifierChar ++
    ((cs.dropWhile isIdentifierChar).take 1).filter fun c => c == '?' || c == '!'

/-- The lexeme at the start of a text. A sign directly before a digit starts a number; any other
sign is an operator character. -/
def Lexeme.first? : List Char → Option Lexeme
  | [] => none
  | c :: cs =>
    if c = '\'' then some ⟨.quote, [c], by simp⟩
    else if c = '(' then some ⟨.openParen, [c], by simp⟩
    else if c = ')' then some ⟨.closeParen, [c], by simp⟩
    else if c = '"' then (literalBody? cs).map fun body => ⟨.text, c :: body ++ ['"'], by simp⟩
    else if Text.isDecimalDigit c || (isSign c && cs.head?.any Text.isDecimalDigit) then
      some ⟨.number, c :: cs.takeWhile Text.isDecimalDigit, by simp⟩
    else if isOperatorChar c then some ⟨.operator, c :: cs.takeWhile isOperatorChar, by simp⟩
    else if isIdentifierStart c then some ⟨.identifier, c :: identifierRest cs, by simp⟩
    else none

theorem literalBody?_eq_some {cs body : List Char} (h : literalBody? cs = some body) :
    body ++ ['"'] <+: cs := by
  fun_induction literalBody? cs generalizing body with
  | case1 => simp at h
  | case2 cs => simp at h; subst h; simp
  | case3 => simp at h
  | case4 c cs ih =>
    obtain ⟨b, hb, rfl⟩ := Option.map_eq_some_iff.1 h
    simpa using ih hb
  | case5 c cs _ _ _ ih =>
    obtain ⟨b, hb, rfl⟩ := Option.map_eq_some_iff.1 h
    simpa using ih hb

theorem identifierRest_isPrefix (cs : List Char) : identifierRest cs <+: cs := by
  conv => rhs; rw [← List.takeWhile_append_dropWhile (p := isIdentifierChar) (l := cs)]
  refine (List.prefix_append_right_inj _).2 ?_
  rcases cs.dropWhile isIdentifierChar with _ | ⟨c, rest⟩
  · simp
  · simp only [List.take_succ_cons, List.take_zero, List.filter_cons, List.filter_nil]
    split <;> simp

-- A lexeme is what the text starts with.
theorem Lexeme.first?_isPrefix {cs : List Char} {lexeme : Lexeme}
    (h : Lexeme.first? cs = some lexeme) : lexeme.chars <+: cs := by
  rcases cs with _ | ⟨c, cs⟩
  · simp [Lexeme.first?] at h
  · dsimp only [Lexeme.first?] at h
    split at h
    · cases h; simp
    split at h
    · cases h; simp
    split at h
    · cases h; simp
    split at h
    · obtain ⟨body, hbody, rfl⟩ := Option.map_eq_some_iff.1 h
      simpa using literalBody?_eq_some hbody
    split at h
    · cases h; simpa using List.takeWhile_prefix _
    split at h
    · cases h; simpa using List.takeWhile_prefix _
    split at h
    · cases h; simpa using identifierRest_isPrefix cs
    · cases h

end MiniLisp
