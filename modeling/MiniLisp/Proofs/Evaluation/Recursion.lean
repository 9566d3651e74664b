import MiniLisp.Proofs.Evaluation.Levels

/-!
# The levels of a recursion

A function that counts its argument down to zero, and back up on the way out, calls itself inside an
addition inside a choice, so each number takes three levels. With the levels of the last choice and
of its test, and that of the call itself, `(count n)` needs `3 * n + 3`, no fewer and no more.
-/

namespace MiniLisp

namespace Counting

/-! ## The program -/

def countName : Name := { text := "count" }

def parameter : Name := { text := "n" }

def equal : Name := { text := "=" }

def plus : Name := { text := "+" }

def minus : Name := { text := "-" }

def choose : Name := { text := "if!" }

def test : Value := callForm equal [.symbol parameter, .number 0]

def previous : Value := callForm minus [.symbol parameter, .number 1]

def oneMore : Value := callForm plus [.number 1, callForm countName [previous]]

/-- The function of `n` that gives 0 for 0, and one more than it gives for `n - 1` otherwise. -/
def function : Function where
  parameters := [parameter.text]
  body := callForm choose [test, .number 0, oneMore]

example : function.body.render = "(if! (= n 0) 0 (+ 1 (count (- n 1))))" := by decide +kernel

/-! ## Its levels -/

variable {scope : Scope}

theorem isOrdinary_countName : countName.IsOrdinary := ⟨by decide, by decide, by decide⟩

theorem inRange_of_le {k n : Nat} (hn : Number.InRange n) (h : k ≤ n) : Number.InRange k := by
  have hleast : Number.least ≤ 0 := by decide
  have hgreatest : (n : Int) ≤ Number.greatest := hn.2
  exact ⟨by omega, by omega⟩

theorem needs_test {n : Int} (hn : scope.get? parameter.text = some (.number n)) :
    Needs 1 scope test (.boolean (n == 0)) := by
  have hname : Native.ofName? equal.text = some (.comparison .equal) := by decide
  exact .native hname (.two (.symbol hn) (.number 0)) fun ev s =>
    Native.call_comparison .equal ev s equal n 0

theorem needs_previous {k : Nat} (hrange : Number.InRange k)
    (hn : scope.get? parameter.text = some (.number (k + 1 : Nat))) :
    Needs 1 scope previous (.number k) := by
  have hname : Native.ofName? minus.text = some (.arithmetic .sub) := by decide
  have hresult : Arithmetic.sub.compute (k + 1 : Nat) 1 = some (k : Int) := congrArg some (by omega)
  exact .arithmetic hname (.symbol hn) (.number 1) hresult hrange

theorem needs_oneMore {k need : Nat} (hrange : Number.InRange (k + 1 : Nat))
    (hcount : Needs need scope (callForm countName [previous]) (.number k)) :
    Needs (need + 1) scope oneMore (.number (k + 1 : Nat)) := by
  have hname : Native.ofName? plus.text = some (.arithmetic .add) := by decide
  have hresult : Arithmetic.add.compute 1 k = some ((k + 1 : Nat) : Int) := congrArg some (by omega)
  exact Nat.zero_max need ▸ .arithmetic hname (.number 1) hcount hresult hrange

theorem needs_call {n : Int} {e : Value} {need more : Nat}
    (hcount : scope.get? countName.text = some function.toValue)
    (he : Needs need scope e (.number n))
    (hbody : Needs more (scope.bind parameter.text (.number n)) function.body (.number n)) :
    Needs (max need more + 1) scope (callForm countName [e]) (.number n) :=
  .call isOrdinary_countName hcount (.one he) rfl hbody

-- What the body looks up under a call: the parameter on top, and still the function.
theorem get?_parameter (n : Int) :
    (scope.bind parameter.text (.number n)).get? parameter.text = some (.number n) := by
  rw [Scope.get?_bind, if_pos rfl]

theorem get?_countName (n : Int) :
    (scope.bind parameter.text (.number n)).get? countName.text = scope.get? countName.text := by
  rw [Scope.get?_bind, if_neg (by decide)]

-- By induction on the number, for every scope, since the call inside binds the parameter anew.
theorem needs_body {k : Nat} (hrange : Number.InRange k)
    (hn : scope.get? parameter.text = some (.number k))
    (hcount : scope.get? countName.text = some function.toValue) :
    Needs (3 * k + 2) scope function.body (.number k) := by
  have hname : SpecialForm.ofName? choose.text = some .choose := by decide
  induction k generalizing scope with
  | zero => exact .choose hname (needs_test hn) (.number 0)
  | succ k ih =>
    have hk : Number.InRange k := inRange_of_le hrange (Nat.le_succ k)
    have hinner : Needs (3 * k + 2) (scope.bind parameter.text (.number k)) function.body
        (.number k) := ih hk (get?_parameter k) ((get?_countName k).trans hcount)
    have hcall : Needs (3 * k + 3) scope (callForm countName [previous]) (.number k) := by
      have hmax : max 1 (3 * k + 2) + 1 = 3 * k + 3 := by omega
      exact hmax ▸ needs_call hcount (needs_previous hk hn) hinner
    have htest : Needs 1 scope test (.boolean false) := needs_test hn
    have hbranch : Needs (3 * k + 4) scope oneMore (.number (k + 1 : Nat)) :=
      needs_oneMore hrange hcall
    have hmax : max 1 (3 * k + 4) + 1 = 3 * (k + 1) + 2 := by omega
    exact hmax ▸ .choose hname htest hbranch

/-- Wherever `count` is bound to the function, whatever else is bound, `(count n)` gives `n` and
leaves the scope as it is when the limit is `3 * n + 3` or more, and ends for want of depth under
every lower limit. -/
theorem count_takes_three_levels_each {n : Nat} (hrange : Number.InRange n)
    (hcount : scope.get? countName.text = some function.toValue) (limit : Nat) :
    (3 * n + 3 ≤ limit →
      evaluateWithin limit scope (callForm countName [.number n]) = pure (scope, .number n)) ∧
    (limit < 3 * n + 3 → ∃ context,
      evaluateWithin limit scope (callForm countName [.number n]) =
        Run.fail (.depthExceeded context limit)) := by
  have hbody : Needs (3 * n + 2) (scope.bind parameter.text (.number n)) function.body
      (.number n) := needs_body hrange (get?_parameter n) ((get?_countName n).trans hcount)
  have hcall : Needs (3 * n + 3) scope (callForm countName [.number n]) (.number n) := by
    have hmax : max 0 (3 * n + 2) + 1 = 3 * n + 3 := by omega
    exact hmax ▸ needs_call hcount (.number n) hbody
  exact hcall.evaluateWithin limit

theorem count_takes_three_levels_each_shadowed :
    ∃ scope : Scope, scope.get? parameter.text = some (.text "outer") ∧
      scope.get? plus.text = some .unit ∧
      evaluateWithin 9 scope (callForm countName [.number 2]) = pure (scope, .number 2) ∧
      ∃ context, evaluateWithin 8 scope (callForm countName [.number 2]) =
        Run.fail (.depthExceeded context 8) := by
  let scope : Scope := ((Scope.initial.bind countName.text function.toValue).bind
    parameter.text (.text "outer")).bind plus.text .unit
  have hrange : Number.InRange (2 : Nat) := by decide
  have hcount : scope.get? countName.text = some function.toValue := rfl
  refine ⟨scope, rfl, rfl, ?_, ?_⟩
  · exact (count_takes_three_levels_each hrange hcount 9).1 (by decide)
  · exact (count_takes_three_levels_each hrange hcount 8).2 (by decide)

end Counting

end MiniLisp
