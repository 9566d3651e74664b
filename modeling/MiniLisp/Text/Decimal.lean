import MiniLisp.Host

/-!
Decimal integers in the digits of every script, after Unicode 14 (general category Nd). Each script
has its ten digits in a row, from zero to nine, so the zeros alone give the table.
-/

namespace MiniLisp.Text

/-- The code points of the digits zero, ascending. -/
def digitZeros : List Nat := [
  0x30, 0x660, 0x6f0, 0x7c0, 0x966, 0x9e6, 0xa66, 0xae6, 0xb66, 0xbe6, 0xc66, 0xce6, 0xd66,
  0xde6, 0xe50, 0xed0, 0xf20, 0x1040, 0x1090, 0x17e0, 0x1810, 0x1946, 0x19d0, 0x1a80, 0x1a90,
  0x1b50, 0x1bb0, 0x1c40, 0x1c50, 0xa620, 0xa8d0, 0xa900, 0xa9d0, 0xa9f0, 0xaa50, 0xabf0,
  0xff10, 0x104a0, 0x10d30, 0x11066, 0x110f0, 0x11136, 0x111d0, 0x112f0, 0x11450, 0x114d0,
  0x11650, 0x116c0, 0x11730, 0x118e0, 0x11950, 0x11c50, 0x11d50, 0x11da0, 0x16a60, 0x16ac0,
  0x16b50, 0x1d7ce, 0x1d7d8, 0x1d7e2, 0x1d7ec, 0x1d7f6, 0x1e140, 0x1e2f0, 0x1e950, 0x1fbf0
]

/-- The value of a decimal digit, of any script. -/
def decimalDigit? (c : Char) : Option Nat :=
  (digitZeros.find? fun z => z ≤ c.toNat && c.toNat < z + 10).map (c.toNat - ·)

def isDecimalDigit (c : Char) : Bool := (decimalDigit? c).isSome

-- The digits of a script stand in a row after its zero.
theorem exists_zero_of_decimalDigit? {c : Char} {d : Nat} (h : decimalDigit? c = some d) :
    ∃ z ∈ digitZeros, c.toNat = z + d ∧ d < 10 := by
  obtain ⟨z, hfind, rfl⟩ := Option.map_eq_some_iff.1 h
  have hrow := List.find?_some hfind
  simp only [Bool.and_eq_true, decide_eq_true_eq] at hrow
  exact ⟨z, List.mem_of_find?_eq_some hfind, by omega, by omega⟩

-- The ASCII digits are among the decimal digits, with their values.
theorem decimalDigit?_of_isDigit {c : Char} (h : c.isDigit) :
    decimalDigit? c = some (c.toNat - 48) := by
  have hbounds : 48 ≤ c.toNat ∧ c.toNat < 48 + 10 := by
    simp only [Char.isDigit, Bool.and_eq_true, decide_eq_true_eq] at h
    exact ⟨h.1, by have := UInt32.le_iff_toNat_le.1 h.2; exact Nat.lt_succ_of_le this⟩
  simp [decimalDigit?, digitZeros, hbounds]

/-- The number that a run of digits writes, most significant digit first. -/
def natOfDigits (cs : List Char) : Nat :=
  cs.foldl (fun value c => 10 * value + (decimalDigit? c).getD 0) 0

/-- How many digits a numeral has. -/
def digitCount (cs : List Char) : Nat := cs.countP isDecimalDigit

/-- The number that a run of digits with an optional sign writes. -/
def intOfDigits : List Char → Int
  | '-' :: cs => -natOfDigits cs
  | '+' :: cs => natOfDigits cs
  | cs => natOfDigits cs

/-- The digits of a text in which single underscores may stand between digits; `none` where it
holds anything else, is empty, or has an underscore elsewhere. -/
def groupedDigits? : List Char → Option (List Char)
  | [] => none
  | [c] => if isDecimalDigit c then some [c] else none
  | c :: '_' :: cs => if isDecimalDigit c then (groupedDigits? cs).map (c :: ·) else none
  | c :: cs => if isDecimalDigit c then (groupedDigits? cs).map (c :: ·) else none

/-- The digits of such a text, if the host converts that many. -/
def convertibleDigits? [Host] (cs : List Char) : Option (List Char) :=
  (groupedDigits? cs).filter fun ds => (Host.exceeded? ds.length).isNone

/-- Reads a decimal integer: an optional sign, then digits in which single underscores may stand
between digits. -/
def readInteger? [Host] (s : String) : Option Int :=
  match s.toList with
  | '-' :: cs => (convertibleDigits? cs).map fun ds => -natOfDigits ds
  | '+' :: cs => (convertibleDigits? cs).map fun ds => natOfDigits ds
  | cs => (convertibleDigits? cs).map fun ds => natOfDigits ds

end MiniLisp.Text
