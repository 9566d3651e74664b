import MiniLisp.Proofs.Evaluation.Arguments

/-!
# Currying is invisible

A function that gets its arguments in two calls does what it does with all of them in one. For a
bound function the two forms evaluate the same expressions, but under other labels, at other depths
and with other moments at which the name is looked up (`curried_call_same_outcome`).
-/

namespace MiniLisp

/-! ## What the label of a call can show -/

/-- The same run, but that too many arguments may be reported under another label. -/
inductive Run.SameButExcessLabel {α : Type} : Run α → Run α → Prop
  | same (x : Run α) : SameButExcessLabel x x
  | excess (out : List String) (c c' : String) (expected got : Nat) :
      SameButExcessLabel ⟨out, .error (.tooManyArguments c expected got)⟩
        ⟨out, .error (.tooManyArguments c' expected got)⟩

namespace Run.SameButExcessLabel

variable {α : Type} {x y : Run α}

theorem after (h : SameButExcessLabel x y) (out : List String) :
    SameButExcessLabel (x.after out) (y.after out) := by
  cases h with
  | same => exact .same _
  | excess out' c c' expected got => exact .excess (out ++ out') c c' expected got

theorem outOfDepth_iff (h : SameButExcessLabel x y) : x.OutOfDepth ↔ y.OutOfDepth := by
  cases h with
  | same => exact Iff.rfl
  | excess out c c' expected got =>
    constructor
    · rintro ⟨context, limit, hresult⟩
      cases hresult
    · rintro ⟨context, limit, hresult⟩
      cases hresult

end Run.SameButExcessLabel

theorem Run.outOfDepth_after {α : Type} {out : List String} {x : Run α} :
    (x.after out).OutOfDepth ↔ x.OutOfDepth := Iff.rfl

-- The label decides nothing about a call; the body alone can run out of depth under it.
theorem Function.apply_relabel {f : Function} {budget : Nat} {scope : Scope}
    {arguments : List Value} (c c' : Name)
    (h : ¬ (f.apply (evaluate budget) scope arguments).OutOfDepth) :
    Run.SameButExcessLabel
      (relabelled c' (f.apply (evaluate budget) (scope.relabel c) arguments))
      (relabelled c' (f.apply (evaluate budget) scope arguments)) := by
  rcases Nat.lt_trichotomy (f.applied.length + arguments.length) f.arity with
    hfew | hlength | hmany
  · rw [Function.apply_of_length_lt hfew, Function.apply_of_length_lt hfew]
    exact .same _
  · have hscope : f.callScope (scope.relabel c) (f.applied ++ arguments) =
        (f.callScope scope (f.applied ++ arguments)).relabel c :=
      scope.bindAll_relabel c _
    rw [Function.apply_of_length_eq hlength] at h
    have hbody : ¬ (evaluate budget (f.callScope scope (f.applied ++ arguments))
        f.body).OutOfDepth := fun hdepth => h (hdepth.bind _).1
    rw [Function.apply_of_length_eq hlength, Function.apply_of_length_eq hlength, hscope,
      evaluate_relabel c hbody, Run.returningTo_relabelled, Run.relabelled_returningTo,
      Run.relabelled_returningTo]
    exact .same _
  · rw [Function.apply_of_lt_length hmany, Function.apply_of_lt_length hmany]
    exact .excess [] _ _ _ _

/-! ## Bound functions -/

section

variable {name : Name} (hname : name.IsOrdinary) {scope : Scope} {budget : Nat} {es : List Value}
  {out : List String}
include hname

theorem evaluate_callForm_eq_apply {after : Scope} {vs : List Value} {f : Function}
    (hes : evaluateEach (evaluate budget) (scope.relabel name) es = ⟨out, .ok (after, vs)⟩)
    (hbound : after.get? name.text = some f.toValue) :
    evaluate (budget + 1) scope (callForm name es) =
      (relabelled scope.label (f.apply (evaluate budget) after vs)).after out := by
  unfold callForm
  rw [evaluate_sequence, evaluateForm_symbol, evaluateNamed_eq_apply hname hes hbound]
  exact relabelled_after scope.label out _

theorem evaluate_callForm_eq_error {e : Error}
    (hes : evaluateEach (evaluate budget) (scope.relabel name) es = ⟨out, .error e⟩) :
    evaluate (budget + 1) scope (callForm name es) = ⟨out, .error e⟩ := by
  unfold callForm
  rw [evaluate_sequence, evaluateForm_symbol, evaluateNamed_of_error hname.notSpecial hes]
  rfl

end

-- The rest of a form whose head, a call, has come to `f` and left `between`.
theorem evaluate_nested_call {budget : Nat} {scope between : Scope} {name : Name}
    {es es' : List Value} {f : Function} {out : List String}
    (hhead : evaluate budget scope (callForm name es) = ⟨out, .ok (between, f.toValue)⟩) :
    evaluate (budget + 1) scope (.sequence (callForm name es :: es')) =
      (relabelled scope.label (do
        let (last, vs) ← evaluateEach (evaluate budget) (between.relabel Scope.anonymousLabel) es'
        f.apply (evaluate budget) last vs)).after out := by
  unfold callForm at hhead ⊢
  rw [evaluate_sequence, ← relabelled_after]
  simp only [evaluateForm, evaluateHead, hhead, Run.bind_ok, Value.toFunction?_toValue]
  rfl

theorem evaluate_nested_error {budget : Nat} {scope : Scope} {name : Name}
    {es es' : List Value} {e : Error} {out : List String}
    (hhead : evaluate budget scope (callForm name es) = ⟨out, .error e⟩) :
    evaluate (budget + 1) scope (.sequence (callForm name es :: es')) = ⟨out, .error e⟩ := by
  unfold callForm at hhead ⊢
  rw [evaluate_sequence]
  simp only [evaluateForm, evaluateHead, hhead, Run.bind_error]
  rfl

/-- The expressions evaluate, given the budget they need, to `vs`, and leave `after`. -/
def EvaluateTo (scope : Scope) (es : List Value) (after : Scope) (vs : List Value) : Prop :=
  ∃ budget, (evaluateEach (evaluate budget) scope es).result = .ok (after, vs)

theorem EvaluateTo.relabel {scope after : Scope} {es vs : List Value}
    (h : EvaluateTo scope es after vs) (c : Name) :
    EvaluateTo (scope.relabel c) es (after.relabel c) vs := by
  obtain ⟨budget, hresult⟩ := h
  refine ⟨budget, ?_⟩
  rw [evaluateEach_relabel c (Run.not_outOfDepth_of_ok hresult)]
  exact Run.result_bind_eq_ok.2 ⟨(after, vs), hresult, rfl⟩

theorem evaluateEach_deeper {budget budget' : Nat} (hbudget : budget ≤ budget') {scope : Scope}
    {es : List Value} (h : ¬ (evaluateEach (evaluate budget) scope es).OutOfDepth) :
    evaluateEach (evaluate budget') scope es = evaluateEach (evaluate budget) scope es :=
  (evaluateEach_extends (evaluate_extends hbudget) es scope).eq h

-- A larger budget does not change where a row ends.
theorem EvaluateTo.scope_eq {scope after after' : Scope} {es vs vs' : List Value}
    (h : EvaluateTo scope es after vs) (h' : EvaluateTo scope es after' vs') : after = after' := by
  obtain ⟨budget, hresult⟩ := h
  obtain ⟨budget', hresult'⟩ := h'
  have hdeeper := evaluateEach_deeper (Nat.le_max_left budget budget')
    (Run.not_outOfDepth_of_ok hresult)
  have hdeeper' := evaluateEach_deeper (Nat.le_max_right budget budget')
    (Run.not_outOfDepth_of_ok hresult')
  rw [← hdeeper, hdeeper', hresult'] at hresult
  cases hresult
  rfl

/-- Two rows of which the first is evaluated a level deeper, and the second under another label, as
one row. -/
theorem evaluateEach_in_parts {budget : Nat} {scope between : Scope} {xs ys vs : List Value}
    {out : List String} {c : Name}
    (hxs : evaluateEach (evaluate budget) scope xs = ⟨out, .ok (between, vs)⟩)
    (hys : ¬ (evaluateEach (evaluate (budget + 1)) (between.relabel c) ys).OutOfDepth) :
    evaluateEach (evaluate (budget + 1)) scope (xs ++ ys) = (do
      let (last, ws) ← evaluateEach (evaluate (budget + 1)) (between.relabel c) ys
      pure (last.relabel between.label, vs ++ ws)).after out := by
  have hdeeper : evaluateEach (evaluate (budget + 1)) scope xs = ⟨out, .ok (between, vs)⟩ := by
    rw [← hxs]
    exact evaluateEach_deeper (Nat.le_succ budget) (Run.not_outOfDepth_of_ok (by rw [hxs]))
  have hlabel : evaluateEach (evaluate (budget + 1)) between ys = (do
      let (last, ws) ← evaluateEach (evaluate (budget + 1)) (between.relabel c) ys
      pure (last.relabel between.label, ws)) := evaluateEach_relabel between.label hys
  rw [evaluateEach_append, hdeeper, Run.bind_ok_eq_after]
  simp only [hlabel, bind_assoc, pure_bind]

section

variable {name : Name} (hname : name.IsOrdinary) {scope between : Scope} {xs ys vs : List Value}
  {f : Function} {budget : Nat} {out : List String}
include hname

-- Nothing is called if the first arguments fail.
theorem curried_call_of_error {e : Error}
    (hxs : evaluateEach (evaluate budget) (scope.relabel name) xs = ⟨out, .error e⟩)
    (hdepth : ¬ (evaluate (budget + 2) scope (.sequence (callForm name xs :: ys))).OutOfDepth) :
    evaluate (budget + 2) scope (callForm name (xs ++ ys)) =
      evaluate (budget + 2) scope (.sequence (callForm name xs :: ys)) := by
  have hhead : evaluate (budget + 1) scope (callForm name xs) = ⟨out, .error e⟩ :=
    evaluate_callForm_eq_error hname hxs
  have hnested : evaluate (budget + 2) scope (.sequence (callForm name xs :: ys)) =
      ⟨out, .error e⟩ := evaluate_nested_error hhead
  have hdeeper : evaluateEach (evaluate (budget + 1)) (scope.relabel name) xs =
      ⟨out, .error e⟩ := by
    rw [← hxs]
    apply evaluateEach_deeper (Nat.le_succ budget)
    rw [hxs, Run.outOfDepth_error_iff]
    rw [hnested, Run.outOfDepth_error_iff] at hdepth
    exact hdepth
  have hflat : evaluateEach (evaluate (budget + 1)) (scope.relabel name) (xs ++ ys) =
      ⟨out, .error e⟩ := by
    rw [evaluateEach_append, hdeeper, Run.bind_error]
  rw [hnested]
  exact evaluate_callForm_eq_error hname hflat

theorem curried_call_of_ok
    (hxs : evaluateEach (evaluate budget) (scope.relabel name) xs = ⟨out, .ok (between, vs)⟩)
    (hbetween : between.get? name.text = some f.toValue)
    (hfew : f.applied.length + vs.length < f.arity)
    (hlast : ∀ last ws, EvaluateTo (between.relabel Scope.anonymousLabel) ys last ws →
      last.get? name.text = some f.toValue)
    (hdepth : ¬ (evaluate (budget + 2) scope (.sequence (callForm name xs :: ys))).OutOfDepth) :
    Run.SameButExcessLabel (evaluate (budget + 2) scope (callForm name (xs ++ ys)))
      (evaluate (budget + 2) scope (.sequence (callForm name xs :: ys))) := by
  have hhead : evaluate (budget + 1) scope (callForm name xs) =
      ⟨out, .ok (between.relabel scope.label, (f.receive vs).toValue)⟩ := by
    rw [evaluate_callForm_eq_apply hname hxs hbetween, Function.apply_of_length_lt hfew,
      relabelled_pure, Run.after_pure]
  have hnested : evaluate (budget + 2) scope (.sequence (callForm name xs :: ys)) =
      (relabelled scope.label (do
        let (last, ws) ←
          evaluateEach (evaluate (budget + 1)) (between.relabel Scope.anonymousLabel) ys
        f.apply (evaluate (budget + 1)) last (vs ++ ws))).after out := by
    rw [evaluate_nested_call hhead]
    simp only [Function.apply_receive, Scope.relabel_relabel]
  have hysdepth : ¬ (evaluateEach (evaluate (budget + 1)) (between.relabel Scope.anonymousLabel)
      ys).OutOfDepth := by
    intro h
    apply hdepth
    rw [hnested, Run.outOfDepth_after]
    exact ((h.bind _).1.bind _).1
  have hflat := evaluateEach_in_parts hxs hysdepth
  rcases hys : evaluateEach (evaluate (budget + 1)) (between.relabel Scope.anonymousLabel) ys with
    ⟨out', e | ⟨last, ws⟩⟩
  · rw [hys, Run.bind_error] at hnested hflat
    rw [evaluate_callForm_eq_error hname hflat, hnested]
    exact .same _
  · have harguments : evaluateEach (evaluate (budget + 1)) (scope.relabel name) (xs ++ ys) =
        ⟨out ++ out', .ok (last.relabel between.label, vs ++ ws)⟩ := by
      rw [hflat, hys, Run.bind_ok_eq_after, Run.after_after, Run.after_pure]
    have hcallee : (last.relabel between.label).get? name.text = some f.toValue :=
      hlast last ws ⟨budget + 1, by rw [hys]⟩
    rw [hys, Run.bind_ok_eq_after, relabelled_after, Run.after_after] at hnested
    rw [evaluate_callForm_eq_apply hname harguments hcallee, hnested]
    apply Run.SameButExcessLabel.after
    apply Function.apply_relabel
    intro h
    apply hdepth
    rw [hnested, Run.outOfDepth_after]
    exact (h.bind _).1

/-- A bound function does on its arguments in two calls what it does on them in one, given the depth
for the two calls, if the first of them leaves it in want of arguments and the name still means the
function once all arguments are evaluated. Only the label under which too many arguments are
reported may differ. -/
theorem curried_call_same_outcome
    (hbound : ∀ between vs, EvaluateTo scope xs between vs →
      between.get? name.text = some f.toValue ∧ f.applied.length + xs.length < f.arity ∧
        ∀ last ws, EvaluateTo between ys last ws → last.get? name.text = some f.toValue)
    {limit : Nat}
    (hdepth : ¬ (evaluateWithin limit scope (.sequence (callForm name xs :: ys))).OutOfDepth) :
    Run.SameButExcessLabel (evaluateWithin limit scope (callForm name (xs ++ ys)))
      (evaluateWithin limit scope (.sequence (callForm name xs :: ys))) := by
  rcases limit with _ | _ | budget
  · exact absurd ⟨scope.label.text, 0, rfl⟩ hdepth
  · exact absurd ⟨scope.label.text, 1, rfl⟩ hdepth
  have hnested : ¬ (evaluate (budget + 2) scope
      (.sequence (callForm name xs :: ys))).OutOfDepth := fun h =>
    hdepth (outOfDepth_evaluateWithin h)
  have hsame : Run.SameButExcessLabel (evaluate (budget + 2) scope (callForm name (xs ++ ys)))
      (evaluate (budget + 2) scope (.sequence (callForm name xs :: ys))) := by
    rcases hxs : evaluateEach (evaluate budget) (scope.relabel name) xs with
      ⟨out, e | ⟨between, vs⟩⟩
    · rw [curried_call_of_error hname hxs hnested]
      exact .same _
    · have hlength : vs.length = xs.length := length_evaluateEach (by rw [hxs])
      have hevaluate : EvaluateTo (scope.relabel name) xs between vs := ⟨budget, by rw [hxs]⟩
      obtain ⟨hbetween, hfew, hlast⟩ := hbound _ vs (hevaluate.relabel scope.label)
      rw [← hlength] at hfew
      refine curried_call_of_ok hname hxs hbetween hfew (fun last ws hys => ?_) hnested
      exact hlast (last.relabel scope.label) ws (hys.relabel scope.label)
  have hflat : ¬ (evaluate (budget + 2) scope (callForm name (xs ++ ys))).OutOfDepth := fun h =>
    hnested (hsame.outOfDepth_iff.1 h)
  rw [evaluateWithin_eq_evaluate hflat, evaluateWithin_eq_evaluate hnested]
  exact hsame

end

/-- The first argument binds what the second one reads, and the third one prints. -/
theorem curried_call_same_outcome_printing :
    ∃ (scope after : Scope) (name : Name) (xs ys : List Value) (v : Value),
      Run.SameButExcessLabel (evaluateWithin 3 scope (callForm name (xs ++ ys)))
        (evaluateWithin 3 scope (.sequence (callForm name xs :: ys))) ∧
      evaluateWithin 3 scope (.sequence (callForm name xs :: ys)) = ⟨["a"], .ok (after, v)⟩ ∧
      after.get? "x" = some (.number 1) ∧
      v = .sequence [.unit, .number 1, .unit] := by
  let f : Function :=
    { parameters := ["a", "b", "c"]
      body := .sequence [.symbol ⟨"list", by decide⟩, .symbol ⟨"a", by decide⟩,
        .symbol ⟨"b", by decide⟩, .symbol ⟨"c", by decide⟩] }
  let name : Name := ⟨"join", by decide⟩
  let scope : Scope := Scope.initial.bind "join" f.toValue
  let between : Scope := scope.bind "x" (.number 1)
  let xs : List Value :=
    [.sequence [.symbol ⟨"def!", by decide⟩, .symbol ⟨"x", by decide⟩, .number 1]]
  let ys : List Value :=
    [.symbol ⟨"x", by decide⟩, .sequence [.symbol ⟨"print", by decide⟩, .text "a"]]
  have hname : name.IsOrdinary := ⟨by decide, by decide, by decide⟩
  have hxs : EvaluateTo scope xs between [.unit] := ⟨1, rfl⟩
  have hys : EvaluateTo between ys between [.number 1, .unit] := ⟨1, rfl⟩
  have hbound : ∀ between' vs, EvaluateTo scope xs between' vs →
      between'.get? name.text = some f.toValue ∧ f.applied.length + xs.length < f.arity ∧
        ∀ last ws, EvaluateTo between' ys last ws → last.get? name.text = some f.toValue := by
    intro between' vs hxs'
    obtain rfl := hxs'.scope_eq hxs
    refine ⟨rfl, by decide, fun last ws hys' => ?_⟩
    obtain rfl := hys'.scope_eq hys
    rfl
  have hrun : evaluateWithin 3 scope (.sequence (callForm name xs :: ys)) =
      ⟨["a"], .ok (between, .sequence [.unit, .number 1, .unit])⟩ := rfl
  have hdepth : ¬ (evaluateWithin 3 scope (.sequence (callForm name xs :: ys))).OutOfDepth := by
    exact Run.not_outOfDepth_of_ok (by rw [hrun])
  exact ⟨scope, between, name, xs, ys, _, curried_call_same_outcome hname hbound hdepth, hrun, rfl,
    rfl⟩

end MiniLisp
