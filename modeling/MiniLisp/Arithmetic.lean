/-!
Arithmetic: the operations on numbers, before any limit on their size. Division rounds toward zero
(`Arithmetic.quotient_eq_tdiv`), and the remainder has the sign of the dividend
(`Arithmetic.remainder_eq_tmod`).
-/

namespace MiniLisp

inductive Arithmetic where
  | add
  | sub
  | mul
  | div
  | mod
  | max
  | min
deriving DecidableEq

inductive Comparison where
  | less
  | greater
  | atMost
  | atLeast
  | equal
deriving DecidableEq

namespace Arithmetic

/-- The quotient rounded toward zero: the magnitudes are divided, rounding down, and the result is
negative if one of the numbers is. The divisor is not zero. -/
def quotient (a b : Int) : Int :=
  let magnitude := Int.fdiv a.natAbs b.natAbs
  if decide (a < 0) = decide (b < 0) then magnitude else -magnitude

/-- What multiplying the quotient by the divisor leaves of the dividend. -/
def remainder (a b : Int) : Int := a - b * quotient a b

-- Rounding the magnitude down rounds the quotient toward zero, on either side of it.
theorem quotient_eq_tdiv (a b : Int) : quotient a b = a.tdiv b := by
  have hmagnitude : Int.fdiv a.natAbs b.natAbs = ((a.natAbs / b.natAbs : Nat) : Int) :=
    Int.fdiv_eq_ediv_of_nonneg _ (Int.natCast_nonneg _)
  have hnatural (n : Nat) : decide (Int.ofNat n < 0) = false :=
    decide_eq_false (Int.not_lt.2 (Int.natCast_nonneg n))
  have hnegative (n : Nat) : decide (Int.negSucc n < 0) = true :=
    decide_eq_true (Int.negSucc_lt_zero n)
  simp only [quotient, hmagnitude]
  cases a with
  | ofNat m =>
    cases b with
    | ofNat n => exact if_pos (by rw [hnatural, hnatural])
    | negSucc n => exact if_neg (by rw [hnatural, hnegative]; decide)
  | negSucc m =>
    cases b with
    | ofNat n => exact if_neg (by rw [hnatural, hnegative]; decide)
    | negSucc n => exact if_pos (by rw [hnegative, hnegative])

theorem remainder_eq_tmod (a b : Int) : remainder a b = a.tmod b := by
  rw [remainder, quotient_eq_tdiv, Int.tmod_def]

/-- The result of an operation; `none` where it would divide by zero. -/
def compute : Arithmetic → Int → Int → Option Int
  | .add, a, b => some (a + b)
  | .sub, a, b => some (a - b)
  | .mul, a, b => some (a * b)
  | .div, a, b => if b = 0 then none else some (quotient a b)
  | .mod, a, b => if b = 0 then none else some (remainder a b)
  | .max, a, b => some (Max.max a b)
  | .min, a, b => some (Min.min a b)

end Arithmetic

def Comparison.holds : Comparison → Int → Int → Bool
  | .less, a, b => a < b
  | .greater, a, b => b < a
  | .atMost, a, b => a ≤ b
  | .atLeast, a, b => b ≤ a
  | .equal, a, b => a == b

end MiniLisp
