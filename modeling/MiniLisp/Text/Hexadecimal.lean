/-!
Hexadecimal numbers: written in lower case, read in either case. What is written reads back.
-/

namespace MiniLisp.Text

def hexDigits (n : Nat) : List Char := Nat.toDigits 16 n

/-- The hexadecimal digits of a number, filled up with zeros to at least `width` digits. -/
def hexDigitsPadded (width n : Nat) : List Char :=
  let ds := hexDigits n
  List.replicate (width - ds.length) '0' ++ ds

def hexDigit? (c : Char) : Option Nat :=
  if '0' ≤ c ∧ c ≤ '9' then some (c.toNat - '0'.toNat)
  else if 'a' ≤ c ∧ c ≤ 'f' then some (c.toNat - 'a'.toNat + 10)
  else if 'A' ≤ c ∧ c ≤ 'F' then some (c.toNat - 'A'.toNat + 10)
  else none

def isHexDigit (c : Char) : Bool := (hexDigit? c).isSome

def natOfHexDigits (cs : List Char) : Nat :=
  cs.foldl (fun value c => 16 * value + (hexDigit? c).getD 0) 0

theorem hexDigit?_digitChar {n : Nat} (h : n < 16) : hexDigit? (Nat.digitChar n) = some n := by
  revert h; revert n; decide

theorem natOfHexDigits_append (xs ys : List Char) :
    natOfHexDigits (xs ++ ys) =
      ys.foldl (fun value c => 16 * value + (hexDigit? c).getD 0) (natOfHexDigits xs) := by
  simp [natOfHexDigits]

-- What is written reads back.
theorem natOfHexDigits_hexDigits (n : Nat) : natOfHexDigits (hexDigits n) = n := by
  induction n using Nat.strongRecOn with
  | ind n ih =>
    by_cases h : n < 16
    · rw [hexDigits, Nat.toDigits_of_lt_base h]
      simp [natOfHexDigits, hexDigit?_digitChar h]
    · have hq := ih (n / 16) (by omega)
      have hr : n % 16 < 16 := Nat.mod_lt _ (by decide)
      rw [hexDigits, Nat.toDigits_eq_if (by decide), if_neg (by omega), natOfHexDigits_append,
        ← hexDigits, hq]
      simp only [List.foldl_cons, List.foldl_nil, hexDigit?_digitChar hr, Option.getD_some]
      omega

end MiniLisp.Text
