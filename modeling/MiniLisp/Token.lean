import MiniLisp.Lexeme
import MiniLisp.ReadError

/-!
Tokens: the lexemes of a source in their places. Blanks and comments separate them. `lexFrom` cuts a
text into tokens up to its end or to the first place where no lexeme starts.
-/

namespace MiniLisp

/-- A lexeme with the position of its first character. -/
structure Token extends Lexeme where
  start : Nat

namespace Token

def text (t : Token) : String := String.ofList t.chars

/-- The position after the last character. -/
def stop (t : Token) : Nat := t.start + t.chars.length

end Token

/-- The tokens of a text, and the error that ended them, if one did. -/
structure Lexing where
  tokens : List Token
  error : Option ReadError

/-- Why no lexeme starts with a character. -/
def lexFault (c : Char) : ReadFault :=
  if c = '"' then .unterminatedText else .unexpectedCharacter c

/-- The tokens of a text that starts at `position` in its source. -/
def lexFrom (position : Nat) (cs : List Char) : Lexing :=
  let start := position + gapLength false cs
  match _h : cs.drop (gapLength false cs) with
  | [] => ⟨[], none⟩
  | c :: rest =>
    match Lexeme.first? (c :: rest) with
    | none => ⟨[], some ⟨lexFault c, start⟩⟩
    | some lexeme =>
      let after := lexFrom (start + lexeme.chars.length) ((c :: rest).drop lexeme.chars.length)
      ⟨⟨lexeme, start⟩ :: after.tokens, after.error⟩
termination_by cs.length
decreasing_by
  have hne := List.length_pos_iff.2 lexeme.chars_ne_nil
  have hlen := congrArg List.length _h
  simp only [List.length_drop, List.length_cons] at hlen ⊢
  omega

def lex (source : List Char) (position : Nat) : Lexing :=
  lexFrom position (source.drop position)

end MiniLisp
