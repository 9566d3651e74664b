import MiniLisp.Proofs.Evaluation.PartialApplication

/-!
# Code inside a form

The code that a form evaluates runs under the label of the form and with one level less than the
form was given. Against the same code outside, with that level less, nothing shows of this but the
label under which a want of depth is reported (`Run.SameButDepthLabel`). This holds of one
expression and of a row (`evaluate_inside`, `evaluateEach_inside`); so `eval` undoes a quote
(`eval_undoes_quote`), and `list` evaluates its arguments as a row of their own
(`evaluate_listForm`).
-/

namespace MiniLisp

/-- The same run, but that a want of depth reported under the label `c` is reported under `c'`. -/
inductive Run.SameButDepthLabel {α : Type} (c c' : Name) : Run α → Run α → Prop
  | same (x : Run α) : SameButDepthLabel c c' x x
  | depth (out : List String) (limit : Nat) :
      SameButDepthLabel c c' ⟨out, .error (.depthExceeded c.text limit)⟩
        ⟨out, .error (.depthExceeded c'.text limit)⟩

namespace Run.SameButDepthLabel

variable {α β : Type} {c c' : Name} {x y : Run α}

theorem after (h : SameButDepthLabel c c' x y) (out : List String) :
    SameButDepthLabel c c' (x.after out) (y.after out) := by
  cases h with
  | same => exact .same _
  | depth out' limit => exact .depth (out ++ out') limit

theorem bind (h : SameButDepthLabel c c' x y) (f : α → Run β) :
    SameButDepthLabel c c' (x >>= f) (y >>= f) := by
  cases h with
  | same => exact .same _
  | depth out limit => exact .depth out limit

end Run.SameButDepthLabel

theorem SameUpToLabel.sameButDepthLabel {c c' : Name} {x y : Run (Scope × Value)}
    (h : SameUpToLabel c c' x y) : Run.SameButDepthLabel c c' x (relabelled c y) := by
  cases h with
  | ok out frames v =>
    have hback : relabelled c ⟨out, .ok (⟨c', frames⟩, v)⟩ = ⟨out, .ok (⟨c, frames⟩, v)⟩ :=
      congrArg (Run.mk · _) (List.append_nil out)
    rw [hback]
    exact .same _
  | error out e => exact .same _
  | depth out limit => exact .depth out limit

/-! ## Under another label -/

variable (c : Name) (budget : Nat) (scope : Scope)

theorem evaluate_inside (e : Value) :
    Run.SameButDepthLabel scope.label c (evaluate budget scope e)
      (relabelled scope.label (evaluate budget (scope.relabel c) e)) :=
  SameUpToLabel.sameButDepthLabel (evaluate_sameUpToLabel budget scope.frames e)

theorem evaluateEach_inside (es : List Value) :
    Run.SameButDepthLabel scope.label c (evaluateEach (evaluate budget) scope es) (do
      let (after, vs) ← evaluateEach (evaluate budget) (scope.relabel c) es
      pure (after.relabel scope.label, vs)) := by
  induction es generalizing scope with
  | nil => exact .same _
  | cons e es ih =>
    unfold evaluateEach
    have hfirst : SameUpToLabel scope.label c (evaluate budget scope e)
        (evaluate budget (scope.relabel c) e) := evaluate_sameUpToLabel budget scope.frames e
    generalize evaluate budget scope e = x at hfirst
    generalize evaluate budget (scope.relabel c) e = y at hfirst
    cases hfirst with
    | error out error => exact .same _
    | depth out limit => exact .depth out limit
    | ok out frames v =>
      -- The others go on from the same frames, again under the two labels.
      have hothers := (ih ⟨scope.label, frames⟩).bind fun result =>
        (pure (result.1, v :: result.2) : Run (Scope × List Value))
      simp only [bind_assoc, pure_bind] at hothers
      simp only [Run.bind_ok_eq_after, Run.bind_after, bind_assoc, pure_bind]
      exact hothers.after out

/-! ## Quotation -/

def evalName : Name := { text := "eval" }

/-- `eval` undoes a quote. The form that evaluates a quoted expression does, with one level more,
what the expression does: it prints the same and ends in the same value and scope or in the same
error, so that what the expression binds or clears is bound or cleared for the caller. Only a want
of depth that the expression reports under the label of the caller is reported under that of
`eval`. -/
theorem eval_undoes_quote (e : Value) :
    Run.SameButDepthLabel scope.label evalName (evaluate budget scope e)
      (evaluate (budget + 1) scope (wholeCall evalName [e])) := by
  have hname : Native.ofName? evalName.text = some .eval := rfl
  have hcall : evaluate (budget + 1) scope (wholeCall evalName [e]) =
      relabelled scope.label (evaluate budget (scope.relabel evalName) e) :=
    Native.evaluate_call hname budget scope [e]
  rw [hcall]
  exact evaluate_inside evalName budget scope e

-- The labels do differ where the budget ends at the quoted expression itself.
example : (evaluate 0 Scope.initial (.sequence [])).result = .error (.depthExceeded "main" 0) ∧
    (evaluate 1 Scope.initial (wholeCall evalName [.sequence []])).result =
      .error (.depthExceeded "eval" 0) := ⟨rfl, rfl⟩

/-! ## Lists -/

def listName : Name := { text := listConstructor }

/-- The form that makes a list of the values of expressions. -/
def listForm (es : List Value) : Value := callForm listName es

theorem evaluate_listForm_eq (es : List Value) :
    evaluate (budget + 1) scope (listForm es) = (do
      let (after, vs) ← evaluateEach (evaluate budget) (scope.relabel listName) es
      pure (after.relabel scope.label, .sequence vs)) := by
  have hspecial : SpecialForm.ofName? listName.text = none := rfl
  have hlist : listName.text = listConstructor := rfl
  unfold listForm callForm
  rw [evaluate_sequence, evaluateForm_symbol, relabelled]
  simp only [evaluateNamed, hspecial, if_pos hlist, bind_assoc, pure_bind]

theorem evaluate_listForm (es : List Value) :
    Run.SameButDepthLabel scope.label listName
      (do let (after, vs) ← evaluateEach (evaluate budget) scope es; pure (after, .sequence vs))
      (evaluate (budget + 1) scope (listForm es)) := by
  have hrow := (evaluateEach_inside listName budget scope es).bind fun result =>
    (pure (result.1, .sequence result.2) : Run (Scope × Value))
  rw [evaluate_listForm_eq]
  simp only [bind_assoc, pure_bind] at hrow
  exact hrow

end MiniLisp
