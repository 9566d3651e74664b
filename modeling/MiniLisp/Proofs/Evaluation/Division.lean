import MiniLisp.Proofs.Evaluation.Levels
import MiniLisp.Proofs.Evaluation.Raises
import Mathlib.Data.Rat.Floor

/-!
# Division

The quotient is the rational quotient rounded toward zero, and the remainder has the sign of the
dividend and is smaller than the divisor (`Arithmetic.divides_quotient_remainder`). In the range of
numbers one quotient is out of range, that of the least number by -1; every remainder is in range,
and so is every product that leads back to the dividend (`division_truncates`).
-/

namespace MiniLisp

/-! ## Rounding toward zero -/

/-- A rational number rounded toward zero. -/
def truncate (q : ℚ) : Int := if 0 ≤ q then ⌊q⌋ else ⌈q⌉

theorem truncate_neg (q : ℚ) : truncate (-q) = -truncate q := by
  unfold truncate
  rcases lt_trichotomy q 0 with h | rfl | h
  · rw [if_pos (by linarith), if_neg (by linarith), Int.floor_neg]
  · rfl
  · rw [if_neg (by linarith), if_pos (by linarith), Int.ceil_neg]

theorem truncate_natCast_div (m n : Nat) : truncate ((m : ℚ) / n) = ((m / n : Nat) : Int) := by
  unfold truncate
  rw [if_pos (by positivity), Rat.floor_natCast_div_natCast, Int.natCast_div]

namespace Arithmetic

variable {a b : Int}

-- Either rounding turns its sign with that of one of the numbers.
theorem quotient_eq_truncate (a b : Int) : quotient a b = truncate ((a : ℚ) / b) := by
  rw [quotient_eq_tdiv]
  obtain ⟨m, rfl | rfl⟩ := a.eq_nat_or_neg
  · obtain ⟨n, rfl | rfl⟩ := b.eq_nat_or_neg
    · exact (truncate_natCast_div m n).symm
    · rw [Int.cast_neg, div_neg, truncate_neg, Int.tdiv_neg]
      exact congrArg Neg.neg (truncate_natCast_div m n).symm
  · obtain ⟨n, rfl | rfl⟩ := b.eq_nat_or_neg
    · rw [Int.cast_neg, neg_div, truncate_neg, Int.neg_tdiv]
      exact congrArg Neg.neg (truncate_natCast_div m n).symm
    · rw [Int.cast_neg, Int.cast_neg, neg_div_neg_eq, Int.neg_tdiv_neg]
      exact (truncate_natCast_div m n).symm

theorem mul_quotient_add_remainder (a b : Int) : b * quotient a b + remainder a b = a :=
  add_sub_cancel _ _

theorem natAbs_remainder_lt (a : Int) (hb : b ≠ 0) : (remainder a b).natAbs < b.natAbs := by
  rw [remainder_eq_tmod, Int.natAbs_tmod]
  exact Nat.mod_lt _ (Int.natAbs_pos.2 hb)

theorem abs_remainder_lt (a : Int) (hb : b ≠ 0) : |remainder a b| < |b| := by
  rw [Int.abs_eq_natAbs, Int.abs_eq_natAbs]
  exact Int.ofNat_lt.2 (natAbs_remainder_lt a hb)

theorem remainder_eq_zero_or_sign (a b : Int) :
    remainder a b = 0 ∨ (remainder a b).sign = a.sign := by
  rw [remainder_eq_tmod, Int.sign_tmod]
  by_cases hdvd : b ∣ a
  · exact .inl (Int.tmod_eq_zero_of_dvd hdvd)
  · exact .inr (if_neg hdvd)

theorem compute_div_eq_some_iff {n : Int} :
    div.compute a b = some n ↔ b ≠ 0 ∧ quotient a b = n := by
  simp [compute]

theorem compute_mod_eq_some_iff {n : Int} :
    mod.compute a b = some n ↔ b ≠ 0 ∧ remainder a b = n := by
  simp [compute]

/-- What dividing `a` by `b` is to give: `q` is the rational quotient rounded toward zero, and `r`,
which is smaller than `b` and has the sign of `a`, is what is left. -/
structure Divides (a b q r : Int) : Prop where
  quotient : q = truncate ((a : ℚ) / b)
  whole : a = b * q + r
  small : |r| < |b|
  sign : r = 0 ∨ r.sign = a.sign

theorem divides_quotient_remainder (a : Int) (hb : b ≠ 0) :
    Divides a b (quotient a b) (remainder a b) where
  quotient := quotient_eq_truncate a b
  whole := (mul_quotient_add_remainder a b).symm
  small := abs_remainder_lt a hb
  sign := remainder_eq_zero_or_sign a b

/-! ## Within the range -/

theorem inRange_remainder (a : Int) (hb : b ≠ 0) (hrange : Number.InRange b) :
    Number.InRange (remainder a b) := by
  have hsmall := natAbs_remainder_lt a hb
  unfold Number.InRange Number.least Number.greatest at *
  omega

-- Only a divisor of 1 or -1 leaves the dividend as large as it is.
theorem inRange_quotient (ha : Number.InRange a) (hb : b ≠ 0)
    (hpair : ¬ (a = Number.least ∧ b = -1)) : Number.InRange (quotient a b) := by
  rw [quotient_eq_tdiv]
  have hq : (a.tdiv b).natAbs = a.natAbs / b.natAbs := Int.natAbs_tdiv a b
  by_cases hone : b.natAbs = 1
  · obtain rfl | rfl : b = 1 ∨ b = -1 := by omega
    · rw [Int.tdiv_one]
      exact ha
    · have hneg : a.tdiv (-1) = -a := (Int.tdiv_neg a 1).trans (congrArg Neg.neg a.tdiv_one)
      have hne : a ≠ Number.least := fun h => hpair ⟨h, rfl⟩
      rw [hneg]
      unfold Number.InRange Number.least Number.greatest at *
      omega
  · have htwo : 2 ≤ b.natAbs := by
      have hpos := Int.natAbs_pos.2 hb
      omega
    have hhalf : a.natAbs / b.natAbs ≤ a.natAbs / 2 := Nat.div_le_div_left htwo (by decide)
    unfold Number.InRange Number.least Number.greatest at *
    omega

theorem not_inRange_quotient_iff (ha : Number.InRange a) (hb : b ≠ 0) :
    quotient a b = Number.greatest + 1 ∧ ¬ Number.InRange (Number.greatest + 1) ↔
      a = Number.least ∧ b = -1 := by
  constructor
  · rintro ⟨hquotient, hrange⟩
    by_contra hpair
    exact hrange (hquotient ▸ inRange_quotient ha hb hpair)
  · rintro ⟨rfl, rfl⟩
    exact ⟨rfl, by decide⟩

-- The product lies between zero and the dividend.
theorem inRange_mul_quotient (b : Int) (ha : Number.InRange a) :
    Number.InRange (b * quotient a b) := by
  have hproduct : b * quotient a b = a - remainder a b :=
    eq_sub_of_add_eq (mul_quotient_add_remainder a b)
  have hle : (remainder a b).natAbs ≤ a.natAbs := by
    rw [remainder_eq_tmod, Int.natAbs_tmod]
    exact Nat.mod_le _ _
  have hsign := remainder_eq_zero_or_sign a b
  rw [hproduct]
  generalize remainder a b = r at *
  rcases hsign with rfl | hsign
  · rw [Int.sub_zero]
    exact ha
  · have hsame : 0 ≤ r ↔ 0 ≤ a := by
      rw [← Int.sign_nonneg_iff, hsign, Int.sign_nonneg_iff]
    unfold Number.InRange Number.least Number.greatest at *
    omega

end Arithmetic

/-! ## Forms -/

/-- The form that multiplies the quotient by the divisor and adds the remainder. -/
def recombined (a b : Int) : Value :=
  Arithmetic.add.form
    (Arithmetic.mul.form (.number b) (Arithmetic.div.form (.number a) (.number b)))
    (Arithmetic.mod.form (.number a) (.number b))

example : (recombined 7 (-2)).render = "(+ (* -2 (/ 7 -2)) (% 7 -2))" := by decide +kernel

theorem needs_recombined {a b n : Int} {scope : Scope} (ha : Number.InRange a)
    (hb : Number.InRange b) (hdivision : Arithmetic.div.compute a b = some n)
    (hn : Number.InRange n) : Needs 3 scope (recombined a b) (.number a) := by
  obtain ⟨hzero, rfl⟩ := Arithmetic.compute_div_eq_some_iff.1 hdivision
  have hrest : Arithmetic.mod.compute a b = some (Arithmetic.remainder a b) :=
    Arithmetic.compute_mod_eq_some_iff.2 ⟨hzero, rfl⟩
  have hwhole : Arithmetic.add.compute (b * Arithmetic.quotient a b) (Arithmetic.remainder a b) =
      some a := congrArg some (Arithmetic.mul_quotient_add_remainder a b)
  have hquotient : Needs 1 scope (Arithmetic.div.form (.number a) (.number b))
      (.number (Arithmetic.quotient a b)) :=
    .arithmetic Arithmetic.div.ofName?_name (.number a) (.number b) hdivision hn
  have hproduct : Needs 2 scope
      (Arithmetic.mul.form (.number b) (Arithmetic.div.form (.number a) (.number b)))
      (.number (b * Arithmetic.quotient a b)) :=
    .arithmetic Arithmetic.mul.ofName?_name (.number b) hquotient rfl
      (Arithmetic.inRange_mul_quotient b ha)
  have hremainder : Needs 1 scope (Arithmetic.mod.form (.number a) (.number b))
      (.number (Arithmetic.remainder a b)) :=
    .arithmetic Arithmetic.mod.ofName?_name (.number a) (.number b) hrest
      (Arithmetic.inRange_remainder a hzero hb)
  exact .arithmetic Arithmetic.add.ofName?_name hproduct hremainder hwhole ha

/-- Division and remainder are exact over the whole range. A divisor of zero is reported, and so is
the one quotient out of range; all other quotients are the rational ones rounded toward zero. There
is a remainder for every other divisor. Where there is a quotient, multiplying it by the divisor and
adding the remainder leads back to the dividend, and never out of the range. -/
theorem division_truncates :
    (∀ a b : Int, b ≠ 0 →
      Arithmetic.Divides a b (Arithmetic.quotient a b) (Arithmetic.remainder a b)) ∧
    ∀ (a b : Int) (scope : Scope) (limit : Nat), Number.InRange a → Number.InRange b → 1 ≤ limit →
      let division := evaluateWithin limit scope (Arithmetic.div.form (.number a) (.number b))
      let rest := evaluateWithin limit scope (Arithmetic.mod.form (.number a) (.number b))
      (division = Run.fail (.divisionByZero "/") ↔ b = 0) ∧
      (rest = Run.fail (.divisionByZero "%") ↔ b = 0) ∧
      (b ≠ 0 →
        (division = Run.fail (.overflow "/" (Number.greatest + 1)) ↔
          a = Number.least ∧ b = -1) ∧
        (¬ (a = Number.least ∧ b = -1) →
          division = pure (scope, .number (truncate ((a : ℚ) / b)))) ∧
        ∃ r, rest = pure (scope, .number r) ∧ |r| < |b| ∧ (r = 0 ∨ r.sign = a.sign)) ∧
      ((∃ after v, division.result = .ok (after, v)) → ∀ deeper, 3 ≤ deeper →
        evaluateWithin deeper scope (recombined a b) = pure (scope, .number a)) := by
  refine ⟨fun a b hzero => Arithmetic.divides_quotient_remainder a hzero, ?_⟩
  intro a b scope limit ha hb hlimit division rest
  have hdivision : division = Run.ofNumber scope (Arithmetic.div.checked "/" a b) :=
    Arithmetic.evaluateWithin_form hlimit
  have hrest : rest = Run.ofNumber scope (Arithmetic.mod.checked "%" a b) :=
    Arithmetic.evaluateWithin_form hlimit
  have hremainder (hzero : b ≠ 0) :
      Run.ofNumber scope (Arithmetic.mod.checked "%" a b) =
        pure (scope, .number (Arithmetic.remainder a b)) := by
    rw [Run.ofNumber_eq_pure_iff, Arithmetic.checked_eq_ok_iff, Arithmetic.compute_mod_eq_some_iff]
    exact ⟨⟨hzero, rfl⟩, Arithmetic.inRange_remainder a hzero hb⟩
  rw [hdivision, hrest]
  refine ⟨?_, ?_, fun hzero => ⟨?_, fun hpair => ?_, _, hremainder hzero,
    Arithmetic.abs_remainder_lt a hzero, Arithmetic.remainder_eq_zero_or_sign a b⟩, ?_⟩
  · rw [Run.ofNumber_eq_fail_iff, Arithmetic.checked_eq_divisionByZero_iff,
      Arithmetic.compute_eq_none_iff]
    exact and_iff_right (.inl rfl)
  · rw [Run.ofNumber_eq_fail_iff, Arithmetic.checked_eq_divisionByZero_iff,
      Arithmetic.compute_eq_none_iff]
    exact and_iff_right (.inr rfl)
  · rw [Run.ofNumber_eq_fail_iff, Arithmetic.checked_eq_overflow_iff,
      Arithmetic.compute_div_eq_some_iff, and_iff_right hzero]
    exact Arithmetic.not_inRange_quotient_iff ha hzero
  · rw [Run.ofNumber_eq_pure_iff, Arithmetic.checked_eq_ok_iff, Arithmetic.compute_div_eq_some_iff,
      ← Arithmetic.quotient_eq_truncate]
    exact ⟨⟨hzero, rfl⟩, Arithmetic.inRange_quotient ha hzero hpair⟩
  · rintro ⟨after, v, hresult⟩ deeper hdeeper
    obtain ⟨n, hchecked⟩ := Run.exists_of_ofNumber_result hresult
    obtain ⟨hcompute, hrange⟩ := Arithmetic.checked_eq_ok_iff.1 hchecked
    exact ((needs_recombined ha hb hcompute hrange).evaluateWithin deeper).1 hdeeper

/-- A negative dividend, and the least number with a divisor that would lead out of the range. -/
theorem division_truncates_negative :
    evaluateWithin 1 Scope.initial (Arithmetic.div.form (.number (-7)) (.number 2)) =
        pure (Scope.initial, .number (-3)) ∧
      evaluateWithin 3 Scope.initial (recombined (-7) 2) = pure (Scope.initial, .number (-7)) ∧
      evaluateWithin 1 Scope.initial
          (Arithmetic.div.form (.number Number.least) (.number (-1))) =
        Run.fail (.overflow "/" (Number.greatest + 1)) := by
  obtain ⟨-, -, hcases, hwhole⟩ := division_truncates.2 (-7) 2 Scope.initial 1 (by decide)
    (by decide) (Nat.le_refl 1)
  obtain ⟨-, -, hleast, -⟩ := division_truncates.2 Number.least (-1) Scope.initial 1 (by decide)
    (by decide) (Nat.le_refl 1)
  have hquotient := (hcases (by decide)).2.1 (by decide)
  rw [← Arithmetic.quotient_eq_truncate] at hquotient
  refine ⟨hquotient, hwhole ⟨_, _, congrArg Run.result hquotient⟩ 3 (Nat.le_refl 3), ?_⟩
  exact (hleast (by decide)).1.2 ⟨rfl, rfl⟩

end MiniLisp
