import MiniLisp.Proofs.Evaluation.Currying
import MiniLisp.Proofs.Evaluation.Natives

/-!
# Natives in want of arguments

A native that gets its arguments in two calls is called in the end by name, from the body of a
function whose parameters hold the arguments. So the two calls come to one call in a scope that
binds these parameters (`evaluate_splitCall`). A native that evaluates no code cannot tell the two
scopes apart (`split_call_same_outcome`).
-/

namespace MiniLisp

/-! ## One call and two -/

/-- The form that calls a name on values as they are. -/
def wholeCall (name : Name) (vs : List Value) : Value := callForm name (vs.map .quoted)

/-- The form that calls a name on the first `k` of some values, and what this gives on the
others. -/
def splitCall (name : Name) (k : Nat) (vs : List Value) : Value :=
  .sequence (wholeCall name (vs.take k) :: (vs.drop k).map .quoted)

namespace Native

section

variable {native : Native} {name : Name} (hname : ofName? name.text = some native)
  {k : Nat} (hk : k < native.arity)
include hname hk

theorem evaluate_splitCall_eq_apply (budget : Nat) (scope : Scope) (vs : List Value) :
    evaluate (budget + 2) scope (splitCall name k vs) =
      relabelled scope.label ((native.curried name []).apply (evaluate (budget + 1))
        (scope.relabel Scope.anonymousLabel) vs) := by
  have hfew : (vs.take k).length < native.arity := by
    rw [List.length_take]
    omega
  have hhead : evaluate (budget + 1) scope (wholeCall name (vs.take k)) =
      ⟨[], .ok (scope, ((native.curried name []).receive (vs.take k)).toValue)⟩ := by
    unfold wholeCall
    rw [evaluate_call hname, call_of_length_ne (Nat.ne_of_lt hfew), if_pos hfew, relabelled_pure]
    rfl
  unfold splitCall wholeCall
  rw [evaluate_nested_call hhead, evaluateEach_quoted]
  simp only [pure_bind, Function.apply_receive, List.take_append_drop]
  rfl

/-- With all its arguments, a native called in two parts is called in one where the parameters of
the function between are bound to the arguments. -/
theorem evaluate_splitCall (budget : Nat) (scope : Scope) {vs : List Value}
    (hlength : vs.length = native.arity) :
    evaluate (budget + 2) scope (splitCall name k vs) =
      (evaluate (budget + 1) (scope.bindAll ((native.parameters.map Name.text).zip vs))
        (wholeCall name vs)).returningTo scope := by
  have hsaturated : (native.curried name []).applied.length + vs.length =
      (native.curried name []).arity := by
    rw [arity_curried, ← hlength]
    exact Nat.zero_add vs.length
  have hcalled : ((native.curried name []).callScope (scope.relabel Scope.anonymousLabel)
      vs).relabel name = (scope.bindAll ((native.parameters.map Name.text).zip vs)).relabel name :=
    congrArg (·.relabel name) (scope.bindAll_relabel Scope.anonymousLabel _)
  have hbody := evaluate_body_curried hname budget (scope.relabel Scope.anonymousLabel) [] hlength
  rw [hcalled] at hbody
  have happlied : (native.curried name []).applied ++ vs = vs := rfl
  unfold wholeCall
  rw [evaluate_splitCall_eq_apply hname hk, Function.apply_of_length_eq hsaturated, happlied, hbody,
    evaluate_call hname, Run.relabelled_returningTo, Run.returningTo_relabelled,
    Run.returningTo_relabelled]
  rfl

end

/-! ## Natives that evaluate no code -/

theorem call_eq_returningTo {native : Native} (hcode : native.evaluatesCode = false)
    (harity : 0 < native.arity) (ev ev' : Evaluator) {s t : Scope} (hlabel : s.label = t.label)
    (name : Name) {vs : List Value} (hlength : vs.length = native.arity) :
    native.call ev' t name vs = (native.call ev s name vs).returningTo t := by
  have hsteady : Steady .all Eq s t (native.call ev s name vs) (native.call ev' t name vs) :=
    call_related (procedure_steady .all (fun _ => rfl) hcode harity ev ev' hlabel)
      (fun _ _ => trivial) hlength
  unfold Steady at hsteady
  generalize native.call ev s name vs = x at hsteady ⊢
  generalize native.call ev' t name vs = y at hsteady ⊢
  cases hsteady with
  | @ok out out' a b hout h =>
    obtain ⟨s', v⟩ := a
    obtain ⟨t', w⟩ := b
    obtain ⟨-, ht, hv, -⟩ := h
    rw [List.forall₂_eq_eq_eq] at hout
    rw [Run.returningTo, Run.bind_ok_eq_after, Run.after_pure, hout]
    exact congrArg (fun p => (⟨out', .ok p⟩ : Run (Scope × Value))) (Prod.ext ht hv.symm)
  | @error out out' hout e =>
    rw [List.forall₂_eq_eq_eq] at hout
    rw [hout]
    rfl

section

variable {native : Native} {name : Name} (hname : ofName? name.text = some native)
include hname

theorem evaluate_wholeCall_of_length_ne {vs : List Value} (h : vs.length ≠ native.arity)
    (budget : Nat) (scope : Scope) :
    evaluate (budget + 1) scope (wholeCall name vs) =
      if vs.length < native.arity then pure (scope, (native.curried name vs).toValue)
      else Run.fail (.tooManyArguments name.text native.arity vs.length) := by
  unfold wholeCall
  rw [evaluate_call hname, call_of_length_ne h]
  by_cases hfew : vs.length < native.arity
  · rw [if_pos hfew, if_pos hfew, relabelled_pure]
    rfl
  · rw [if_neg hfew, if_neg hfew]
    rfl

theorem evaluate_splitCall_of_length_ne {k : Nat} (hk : k < native.arity) {vs : List Value}
    (h : vs.length ≠ native.arity) (budget : Nat) (scope : Scope) :
    evaluate (budget + 2) scope (splitCall name k vs) =
      if vs.length < native.arity then pure (scope, (native.curried name vs).toValue)
      else Run.fail (.tooManyArguments Scope.anonymousLabel.text native.arity vs.length) := by
  have harity := native.arity_curried name []
  have happlied : (native.curried name []).applied.length + vs.length = vs.length :=
    Nat.zero_add vs.length
  rw [evaluate_splitCall_eq_apply hname hk]
  by_cases hfew : vs.length < native.arity
  · rw [if_pos hfew, Function.apply_of_length_lt (by omega), relabelled_pure]
    rfl
  · rw [if_neg hfew, Function.apply_of_lt_length (by omega), happlied, harity]
    rfl

theorem evaluate_splitCall_eq_wholeCall (hcode : native.evaluatesCode = false) {k : Nat}
    (hk : k < native.arity) {vs : List Value} (hlength : vs.length = native.arity) (budget : Nat)
    (scope : Scope) :
    evaluate (budget + 2) scope (splitCall name k vs) =
        evaluate (budget + 2) scope (wholeCall name vs) ∧
      ∀ after v, (evaluate (budget + 2) scope (wholeCall name vs)).result = .ok (after, v) →
        after = scope := by
  -- The two calls differ in their scopes and budgets; a native that evaluates no code sees neither.
  let between : Scope := scope.bindAll ((native.parameters.map Name.text).zip vs)
  have hlabel : (between.relabel name).label = (scope.relabel name).label := rfl
  have hcall := call_eq_returningTo hcode (Nat.zero_lt_of_lt hk) (evaluate budget)
    (evaluate (budget + 1)) hlabel name hlength
  have hsplit := evaluate_splitCall hname hk budget scope hlength
  have hwhole : evaluate (budget + 2) scope (wholeCall name vs) =
      relabelled scope.label (native.call (evaluate (budget + 1)) (scope.relabel name) name vs) :=
    evaluate_call hname (budget + 1) scope vs
  rw [hcall, Run.relabelled_returningTo] at hwhole
  rw [wholeCall, evaluate_call hname, Run.returningTo_relabelled] at hsplit
  constructor
  · rw [hsplit, hwhole]
    rfl
  · intro after v hresult
    rw [hwhole] at hresult
    exact Run.eq_of_returningTo_result hresult

/-- A native that evaluates no code does the same on its arguments in two calls as in one, whatever
the scope binds. With too many arguments both forms are refused, each under its own label. -/
theorem split_call_same_outcome (hcode : native.evaluatesCode = false) {k : Nat}
    (hk : k < native.arity) (vs : List Value) (scope : Scope) {limit : Nat} (hlimit : 2 ≤ limit) :
    (vs.length ≤ native.arity →
      evaluateWithin limit scope (splitCall name k vs) =
        evaluateWithin limit scope (wholeCall name vs) ∧
      ∀ after v, (evaluateWithin limit scope (wholeCall name vs)).result = .ok (after, v) →
        after = scope) ∧
    (native.arity < vs.length →
      evaluateWithin limit scope (splitCall name k vs) =
        Run.fail (.tooManyArguments Scope.anonymousLabel.text native.arity vs.length) ∧
      evaluateWithin limit scope (wholeCall name vs) =
        Run.fail (.tooManyArguments name.text native.arity vs.length)) := by
  obtain ⟨budget, rfl⟩ : ∃ budget, limit = budget + 2 := ⟨limit - 2, by omega⟩
  unfold evaluateWithin
  constructor
  · intro hle
    rcases Nat.lt_or_eq_of_le hle with hfew | hlength
    · have hne : vs.length ≠ native.arity := Nat.ne_of_lt hfew
      rw [evaluate_splitCall_of_length_ne hname hk hne, evaluate_wholeCall_of_length_ne hname hne,
        if_pos hfew, if_pos hfew]
      refine ⟨rfl, fun after v hresult => ?_⟩
      cases hresult
      rfl
    · obtain ⟨hsame, hafter⟩ := evaluate_splitCall_eq_wholeCall hname hcode hk hlength budget scope
      rw [hsame]
      exact ⟨rfl, fun after v hresult => hafter after v (Run.mapError_result_eq_ok.1 hresult)⟩
  · intro hmany
    have hne : vs.length ≠ native.arity := Nat.ne_of_gt hmany
    rw [evaluate_splitCall_of_length_ne hname hk hne, evaluate_wholeCall_of_length_ne hname hne,
      if_neg (by omega), if_neg (by omega)]
    exact ⟨rfl, rfl⟩

end

/-- The scope binds both parameters and the name of the native. -/
theorem split_call_same_outcome_shadowed :
    ∃ (scope : Scope) (name : Name), scope.get? name.text = some .unit ∧
      scope.get? "a0" = some (.number 1) ∧ scope.get? "a1" = some (.number 2) ∧
      evaluateWithin 2 scope (splitCall name 1 [.number 7, .number 4]) =
        evaluateWithin 2 scope (wholeCall name [.number 7, .number 4]) ∧
      evaluateWithin 2 scope (wholeCall name [.number 7, .number 4]) =
        ⟨[], .ok (scope, .number 3)⟩ ∧
      evaluateWithin 2 scope (splitCall name 1 [.unit, .unit, .unit]) =
        Run.fail (.tooManyArguments "anonymous" 2 3) := by
  let scope : Scope :=
    ((Scope.initial.bind "-" .unit).bind "a0" (.number 1)).bind "a1" (.number 2)
  let name : Name := ⟨"-", by decide⟩
  have hname : ofName? name.text = some (.arithmetic .sub) := rfl
  have hcode : (Native.arithmetic .sub).evaluatesCode = false := rfl
  have hk : 1 < (Native.arithmetic .sub).arity := by decide
  have hlimit : 2 ≤ 2 := Nat.le_refl 2
  have henough := split_call_same_outcome hname hcode hk [.number 7, .number 4] scope hlimit
  have hmany := split_call_same_outcome hname hcode hk [.unit, .unit, .unit] scope hlimit
  exact ⟨scope, name, rfl, rfl, rfl, (henough.1 (by decide)).1, rfl, (hmany.2 (by decide)).1⟩

end Native

end MiniLisp
