import MiniLisp.ReadError

/-!
Text literals: what stands between the double quotes of a text in source. Writing escapes what the
reader could mistake or the eye could miss; reading accepts eight escapes of one character and code
points in hexadecimal.
-/

namespace MiniLisp.Text

/-! ## Writing -/

/-- The letter that writes a character after a backslash. -/
def escapeLetter? : Char → Option Char
  | '"' => some '"'
  | '\\' => some '\\'
  | '\n' => some 'n'
  | '\t' => some 't'
  | '\r' => some 'r'
  | '\x08' => some 'b'
  | '\x0c' => some 'f'
  | _ => none

/-- A character as a literal writes it. -/
def encodeChar (c : Char) : List Char :=
  match escapeLetter? c with
  | some letter => ['\\', letter]
  | none =>
    if isPrintable c then [c] else '\\' :: 'u' :: '\x7b' :: hexDigits c.toNat ++ ['\x7d']

/-- The body of the literal that stands for a text. -/
def encode (cs : List Char) : List Char := cs.flatMap encodeChar

def literal (s : String) : String := String.ofList ('"' :: encode s.toList ++ ['"'])

/-! ## Reading -/

/-- The character that a letter after a backslash stands for. -/
def escaped? : Char → Option Char
  | '"' => some '"'
  | '\\' => some '\\'
  | '/' => some '/'
  | 'n' => some '\n'
  | 't' => some '\t'
  | 'r' => some '\r'
  | 'b' => some '\x08'
  | 'f' => some '\x0c'
  | _ => none

/-- The digits of a code point escape: after the backslash, `u`, then one to six hexadecimal
digits in braces. -/
def codePointDigits? : List Char → Option (List Char)
  | 'u' :: '\x7b' :: cs =>
    let digits := cs.takeWhile isHexDigit
    if 1 ≤ digits.length ∧ digits.length ≤ 6 ∧ (cs.drop digits.length).head? = some '\x7d' then
      some digits
    else none
  | _ => none

/-- Reads the escape after a backslash: its character and its length. -/
def readEscape : List Char → Except ReadFault (Char × Nat)
  | [] => .error .unterminatedText
  | c :: cs =>
    match escaped? c with
    | some d => .ok (d, 1)
    | none =>
      match codePointDigits? (c :: cs) with
      | some digits =>
        if (natOfHexDigits digits).isValidChar then
          .ok (Char.ofNat (natOfHexDigits digits), digits.length + 3)
        else .error (.invalidCodePoint digits)
      | none => .error (.unknownEscape c)

/-- The text that the body of a literal stands for. The body starts at `position`; a bad escape is
blamed on the character after its backslash. -/
def decode (position : Nat) : List Char → Except ReadError (List Char)
  | [] => .ok []
  | c :: cs =>
    if c = '\\' then
      match readEscape cs with
      | .ok (d, length) => (decode (position + 1 + length) (cs.drop length)).map (d :: ·)
      | .error fault => .error ⟨fault, position + 1⟩
    else (decode (position + 1) cs).map (c :: ·)
termination_by cs => cs.length

end MiniLisp.Text
