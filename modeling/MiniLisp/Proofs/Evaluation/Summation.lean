import MiniLisp.Proofs.Evaluation.CheckedArithmetic
import MiniLisp.Proofs.Evaluation.Iteration
import Mathlib.Algebra.BigOperators.Group.List.Basic
import Mathlib.Algebra.Ring.Int.Defs
import Mathlib.Data.Nat.Find

/-!
# Sums by folding

A fold of an arithmetic native over numbers is the fold of the checked operation
(`Callee.fold_arithmetic`). So a sum is found to leave the range at the first partial sum that does,
whatever comes after it (`fold_add_reports_first_overflow`).
-/

namespace MiniLisp

/-! ## Folds -/

namespace Callee

variable {ev : Evaluator}

theorem call_arithmetic (op : Arithmetic) (label : Name) (scope : Scope) (a b : Int) :
    (Callee.builtIn (.arithmetic op)).call ev label scope [.number a, .number b] =
      Run.ofNumber scope (op.checked label.text a b) := by
  unfold call
  simp only [Native.call_arithmetic, relabelled_ofNumber]
  rfl

theorem fold_arithmetic (op : Arithmetic) (label : Name) (scope : Scope) (init : Int)
    (xs : List Int) :
    (Callee.builtIn (.arithmetic op)).fold ev label scope (.number init) (xs.map .number) =
      Run.ofNumber scope (xs.foldlM (op.checked label.text) init) := by
  unfold fold
  induction xs generalizing init with
  | nil => rfl
  | cons x xs ih =>
    rw [List.map_cons, List.foldlM_cons, List.foldlM_cons, foldStep, call_arithmetic]
    cases op.checked label.text init x with
    | error e => rfl
    | ok n => exact ih n

end Callee

/-! ## Sums -/

/-- A number and the first `i` of some others, added up. -/
def partialSum (init : Int) (xs : List Int) (i : Nat) : Int := init + (xs.take i).sum

section

variable {init : Int} {xs : List Int}

theorem partialSum_zero : partialSum init xs 0 = init := by
  rw [partialSum, List.take_zero, List.sum_nil, Int.add_zero]

theorem partialSum_length : partialSum init xs xs.length = init + xs.sum := by
  rw [partialSum, List.take_length]

theorem partialSum_succ {i : Nat} (h : i < xs.length) :
    partialSum init xs (i + 1) = partialSum init xs i + xs[i] := by
  rw [partialSum, partialSum, List.sum_take_succ xs i h, Int.add_assoc]

theorem foldlM_checked_add_cons {context : String} {i : Nat} (h : i < xs.length) :
    (xs.drop i).foldlM (Arithmetic.add.checked context) (partialSum init xs i) =
      (do let n ← Arithmetic.add.checked context (partialSum init xs i) xs[i]
          (xs.drop (i + 1)).foldlM (Arithmetic.add.checked context) n) := by
  rw [List.drop_eq_getElem_cons h, List.foldlM_cons]

-- As long as the partial sums are in range, adding goes on from the last of them.
theorem foldlM_checked_add {context : String} {i : Nat} (hi : i ≤ xs.length)
    (h : ∀ j ≤ i, Number.InRange (partialSum init xs j)) :
    xs.foldlM (Arithmetic.add.checked context) init =
      (xs.drop i).foldlM (Arithmetic.add.checked context) (partialSum init xs i) := by
  induction i with
  | zero => rw [partialSum_zero, List.drop_zero]
  | succ i ih =>
    have hnext : Number.InRange (partialSum init xs i + xs[i]) := by
      rw [← partialSum_succ hi]
      exact h (i + 1) (Nat.le_refl _)
    rw [ih (Nat.le_of_lt hi) fun j hj => h j (Nat.le_succ_of_le hj), foldlM_checked_add_cons hi,
      Arithmetic.checked_eq_ok_iff.2 ⟨rfl, hnext⟩, partialSum_succ hi]
    rfl

theorem foldlM_checked_add_of_forall {context : String}
    (h : ∀ i ≤ xs.length, Number.InRange (partialSum init xs i)) :
    xs.foldlM (Arithmetic.add.checked context) init = .ok (init + xs.sum) := by
  rw [foldlM_checked_add (Nat.le_refl _) h, List.drop_length, partialSum_length]
  rfl

theorem foldlM_checked_add_of_first {context : String} {i : Nat} (hi : i < xs.length)
    (hbefore : ∀ j ≤ i, Number.InRange (partialSum init xs j))
    (hfirst : ¬ Number.InRange (partialSum init xs (i + 1))) :
    xs.foldlM (Arithmetic.add.checked context) init =
      .error (.overflow context (partialSum init xs (i + 1))) := by
  rw [partialSum_succ hi] at hfirst ⊢
  rw [foldlM_checked_add (Nat.le_of_lt hi) hbefore, foldlM_checked_add_cons hi,
    Arithmetic.checked_eq_overflow_iff.2 ⟨rfl, hfirst⟩]
  rfl

theorem exists_first_not_inRange (hinit : Number.InRange init)
    (h : ¬ ∀ i ≤ xs.length, Number.InRange (partialSum init xs i)) :
    ∃ i < xs.length, ¬ Number.InRange (partialSum init xs (i + 1)) ∧
      ∀ j ≤ i, Number.InRange (partialSum init xs j) := by
  have hexists : ∃ k, k ≤ xs.length ∧ ¬ Number.InRange (partialSum init xs k) := by
    simpa only [not_forall, exists_prop] using h
  obtain ⟨hle, hfirst⟩ := Nat.find_spec hexists
  have hbefore {j : Nat} (hj : j < Nat.find hexists) : Number.InRange (partialSum init xs j) := by
    by_contra hout
    exact Nat.find_min hexists hj ⟨Nat.le_trans (Nat.le_of_lt hj) hle, hout⟩
  -- The first of all partial sums is the number that is added to.
  have hne : Nat.find hexists ≠ 0 := by
    intro hzero
    rw [hzero, partialSum_zero] at hfirst
    exact hfirst hinit
  obtain ⟨i, hi⟩ := Nat.exists_eq_succ_of_ne_zero hne
  rw [hi] at hle hfirst
  exact ⟨i, hle, hfirst, fun j hj => hbefore (by omega)⟩

end

def foldName : Name := { text := "fold" }

/-- The form that adds up a number and the items of a list of numbers. -/
def sumForm (init : Int) (xs : List Int) : Value :=
  callForm foldName [.quoted (.symbol Arithmetic.add.name), .number init,
    .quoted (.sequence (xs.map .number))]

theorem evaluate_sumForm (budget : Nat) (scope : Scope) (init : Int) (xs : List Int) :
    evaluate (budget + 2) scope (sumForm init xs) =
      Run.ofNumber scope (xs.foldlM (Arithmetic.add.checked "+") init) := by
  have hname : Native.ofName? foldName.text = some .fold := rfl
  have hrow : evaluateEach (evaluate (budget + 1)) (scope.relabel foldName)
      [.quoted (.symbol Arithmetic.add.name), .number init, .quoted (.sequence (xs.map .number))] =
        pure (scope.relabel foldName,
          [.symbol Arithmetic.add.name, .number init, .sequence (xs.map .number)]) := by
    simp only [evaluateEach, evaluate, pure_bind]
  have hadd : Operates (scope.relabel foldName) (.symbol Arithmetic.add.name) Arithmetic.add.name
      (.builtIn (.arithmetic .add)) := .builtIn Arithmetic.add.ofName?_name
  have hcall : Native.fold.call (evaluate (budget + 1)) (scope.relabel foldName) foldName
      [.symbol Arithmetic.add.name, .number init, .sequence (xs.map .number)] =
        Run.ofNumber (scope.relabel foldName) (xs.foldlM (Arithmetic.add.checked "+") init) :=
    (hadd.foldItems_eq budget _ _).trans (Callee.fold_arithmetic .add Arithmetic.add.name _ init xs)
  unfold sumForm
  rw [Native.evaluate_callForm hname hrow, hcall, relabelled_ofNumber]
  rfl

/-- Adding up numbers by a fold gives their sum, and leaves the scope as it is, if and only if all
partial sums are in range. Otherwise it reports the first that is not, even where later items would
lead back into the range. -/
theorem fold_add_reports_first_overflow {init : Int} (hinit : Number.InRange init) (xs : List Int)
    (scope : Scope) {limit : Nat} (hlimit : 2 ≤ limit) :
    (evaluateWithin limit scope (sumForm init xs) = pure (scope, .number (init + xs.sum)) ↔
      ∀ i ≤ xs.length, Number.InRange (partialSum init xs i)) ∧
    ((¬ ∀ i ≤ xs.length, Number.InRange (partialSum init xs i)) →
      ∃ i ≤ xs.length, ¬ Number.InRange (partialSum init xs i) ∧
        (∀ j < i, Number.InRange (partialSum init xs j)) ∧
        evaluateWithin limit scope (sumForm init xs) =
          Run.fail (.overflow "+" (partialSum init xs i))) := by
  obtain ⟨budget, rfl⟩ : ∃ budget, limit = budget + 2 := ⟨limit - 2, by omega⟩
  have hfails (h : ¬ ∀ i ≤ xs.length, Number.InRange (partialSum init xs i)) :
      ∃ i ≤ xs.length, ¬ Number.InRange (partialSum init xs i) ∧
        (∀ j < i, Number.InRange (partialSum init xs j)) ∧
        evaluateWithin (budget + 2) scope (sumForm init xs) =
          Run.fail (.overflow "+" (partialSum init xs i)) := by
    obtain ⟨i, hi, hfirst, hbefore⟩ := exists_first_not_inRange hinit h
    refine ⟨i + 1, hi, hfirst, fun j hj => hbefore j (Nat.le_of_lt_succ hj), ?_⟩
    rw [evaluateWithin, evaluate_sumForm, foldlM_checked_add_of_first hi hbefore hfirst]
    rfl
  refine ⟨⟨fun hsum => ?_, fun h => ?_⟩, hfails⟩
  · by_contra h
    obtain ⟨i, -, -, -, hfail⟩ := hfails h
    rw [hsum] at hfail
    cases hfail
  · rw [evaluateWithin, evaluate_sumForm, foldlM_checked_add_of_forall h]
    rfl

/-- The last item would bring the sum back to the greatest number. -/
theorem fold_add_reports_first_overflow_returning :
    Number.InRange Number.greatest ∧ Number.InRange (Number.greatest + [-1, 2, -1].sum) ∧
      evaluateWithin 2 Scope.initial (sumForm Number.greatest [-1, 2, -1]) =
        Run.fail (.overflow "+" (Number.greatest + 1)) := by
  have hinit : Number.InRange Number.greatest := by decide
  have hout : ¬ ∀ i ≤ 3, Number.InRange (partialSum Number.greatest [-1, 2, -1] i) :=
    fun h => absurd (h 2 (by decide)) (by decide)
  obtain ⟨-, hfails⟩ := fold_add_reports_first_overflow hinit [-1, 2, -1] Scope.initial
    (Nat.le_refl 2)
  obtain ⟨i, -, hfirst, hbefore, hfail⟩ := hfails hout
  have hi : i = 2 := by
    have hinside : ∀ j < 2, Number.InRange (partialSum Number.greatest [-1, 2, -1] j) := by decide
    rcases Nat.lt_trichotomy i 2 with hlt | heq | hgt
    · exact absurd (hinside i hlt) hfirst
    · exact heq
    · exact absurd (hbefore 2 hgt) (by decide)
  subst hi
  exact ⟨hinit, by decide, hfail⟩

end MiniLisp
