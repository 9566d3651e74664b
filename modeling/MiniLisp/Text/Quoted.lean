import MiniLisp.Text.Hexadecimal
import MiniLisp.Text.Printable

/-!
Quoted text: a text shown between quote marks for a reader of diagnostics, every character visible.
Single marks are used, unless the text holds a single mark and no double one.
-/

namespace MiniLisp.Text

/-- The mark to put around a text. -/
def quoteMark (cs : List Char) : Char :=
  if cs.contains '\'' && !cs.contains '"' then '"' else '\''

/-- A character as it stands between marks: the mark itself and the backslash take a backslash,
and what cannot be printed appears as its code, in the shortest of three widths. -/
def quotedChar (mark c : Char) : List Char :=
  if c = mark ∨ c = '\\' then ['\\', c]
  else if c = '\n' then ['\\', 'n']
  else if c = '\t' then ['\\', 't']
  else if c = '\r' then ['\\', 'r']
  else if isPrintable c then [c]
  else if c.toNat < 0x100 then '\\' :: 'x' :: hexDigitsPadded 2 c.toNat
  else if c.toNat < 0x10000 then '\\' :: 'u' :: hexDigitsPadded 4 c.toNat
  else '\\' :: 'U' :: hexDigitsPadded 8 c.toNat

def quoted (s : String) : String :=
  let mark := quoteMark s.toList
  String.ofList (mark :: s.toList.flatMap (quotedChar mark) ++ [mark])

end MiniLisp.Text
