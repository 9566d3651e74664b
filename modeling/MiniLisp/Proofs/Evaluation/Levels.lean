import MiniLisp.Proofs.Evaluation.CheckedArithmetic

/-!
# How many levels an expression needs

Code that prints nothing and binds nothing either has the levels it needs, and then has its value,
or ends for want of depth (`Needs`). Two runs after each other need the most that either needs
(`Metered.followedBy`), and a list spends one level more than its parts (`Needs.sequence`). From
these there is a rule for a list that is built, for the call of a native, for that of a bound
function and for a choice, so the levels of a program are counted by following its text. No rule
speaks of labels, since what an expression needs does not depend on them (`Needs.relabel`).
-/

namespace MiniLisp

variable {need more budget : Nat}

/-! ## Runs on a budget -/

/-- Given `need` levels or more, `run` gives `a`; given fewer it ends for want of depth. It prints
nothing. -/
structure Metered {α : Type} (need : Nat) (run : Nat → Run α) (a : α) : Prop where
  enough {budget : Nat} (h : need ≤ budget) : run budget = pure a
  short {budget : Nat} (h : budget < need) :
    ∃ context, run budget = Run.fail (.depthExceeded context 0)

namespace Metered

variable {α β : Type} {first : Nat → Run α} {next whole : Nat → Run β} {a : α} {r : β}

theorem of_forall (h : ∀ budget, first budget = pure a) : Metered 0 first a where
  enough _ := h _
  short h := absurd h (Nat.not_lt_zero _)

/-- What begins with one run and goes on with another needs the most that either needs. -/
theorem followedBy (hfirst : Metered need first a) (hnext : Metered more next r)
    (hgoes : ∀ {budget}, first budget = pure a → whole budget = next budget)
    (hends : ∀ {budget error}, first budget = Run.fail error → whole budget = Run.fail error) :
    Metered (max need more) whole r where
  enough h := by
    obtain ⟨hneed, hmore⟩ := Nat.max_le.1 h
    rw [hgoes (hfirst.enough hneed), hnext.enough hmore]
  short {budget} h := by
    by_cases hneed : need ≤ budget
    · rw [hgoes (hfirst.enough hneed)]
      exact hnext.short (by omega)
    · obtain ⟨context, hfails⟩ := hfirst.short (Nat.lt_of_not_le hneed)
      exact ⟨context, hends hfails⟩

theorem bind {f : Nat → α → Run β} (hfirst : Metered need first a)
    (hnext : Metered more (fun budget => f budget a) r) :
    Metered (max need more) (fun budget => first budget >>= f budget) r :=
  hfirst.followedBy hnext (fun h => by rw [h, pure_bind]) (fun h => by rw [h]; rfl)

theorem map (h : Metered need first a) (g : α → β) :
    Metered need (fun budget => first budget >>= fun a => Pure.pure (g a)) (g a) :=
  Nat.max_zero need ▸ h.bind (.of_forall fun _ => rfl)

end Metered

/-! ## Expressions -/

variable {scope : Scope} {name : Name} {e v : Value} {es vs : List Value}

/-- Given `need` levels or more, `e` has the value `v` and leaves the scope as it is; given fewer it
ends for want of depth. -/
def Needs (need : Nat) (scope : Scope) (e v : Value) : Prop :=
  Metered need (fun budget => evaluate budget scope e) (scope, v)

/-- The same of a row of expressions. -/
inductive NeedsEach (scope : Scope) : Nat → List Value → List Value → Prop
  | nil : NeedsEach scope 0 [] []
  | cons {need more : Nat} {e v : Value} {es vs : List Value} (h : Needs need scope e v)
      (hs : NeedsEach scope more es vs) : NeedsEach scope (max need more) (e :: es) (v :: vs)

theorem NeedsEach.metered (h : NeedsEach scope need es vs) :
    Metered need (fun budget => evaluateEach (evaluate budget) scope es) (scope, vs) := by
  induction h with
  | nil => exact .of_forall fun _ => rfl
  | cons h _ ih =>
    unfold evaluateEach
    exact Metered.bind h (ih.map _)

theorem NeedsEach.one (h : Needs need scope e v) : NeedsEach scope need [e] [v] :=
  Nat.max_zero need ▸ .cons h .nil

theorem NeedsEach.two {f w : Value} (he : Needs need scope e v) (hf : Needs more scope f w) :
    NeedsEach scope (max need more) [e, f] [v, w] :=
  .cons he (.one hf)

theorem Needs.relabel (h : Needs need scope e v) (label : Name) :
    Needs need (scope.relabel label) e v where
  enough {budget} hbudget := by
    have hrun : evaluate budget scope e = pure (scope, v) := h.enough hbudget
    have hdepth : ¬ (evaluate budget scope e).OutOfDepth := by
      rintro ⟨context, limit, hfails⟩
      rw [hrun] at hfails
      cases hfails
    rw [evaluate_relabel label hdepth, hrun]
    rfl
  short {budget} hbudget := by
    obtain ⟨context, hfails⟩ := h.short hbudget
    have hsame : SameUpToLabel scope.label label (evaluate budget scope e)
        (evaluate budget (scope.relabel label) e) := evaluate_sameUpToLabel budget scope.frames e
    rw [hfails] at hsame
    generalize evaluate budget (scope.relabel label) e = y at hsame ⊢
    cases hsame with
    | error => exact ⟨context, rfl⟩
    | depth => exact ⟨label.text, rfl⟩

theorem NeedsEach.relabel (h : NeedsEach scope need es vs) (label : Name) :
    NeedsEach (scope.relabel label) need es vs := by
  induction h with
  | nil => exact .nil
  | cons h _ ih => exact .cons (h.relabel label) ih

namespace Needs

theorem number (n : Int) : Needs 0 scope (.number n) (.number n) :=
  .of_forall fun budget => by simp only [evaluate]

theorem quoted (v : Value) : Needs 0 scope (.quoted v) v :=
  .of_forall fun budget => by simp only [evaluate]

theorem symbol (h : scope.get? name.text = some v) : Needs 0 scope (.symbol name) v :=
  .of_forall fun budget => by simp only [evaluate, h]

-- A list spends a level before it does anything, and takes its label with it.
theorem sequence {after : Scope}
    (h : Metered need (fun budget => evaluateForm (evaluate budget) scope es) (after, v))
    (hafter : after.relabel scope.label = scope) : Needs (need + 1) scope (.sequence es) v where
  enough {budget} hbudget := by
    obtain ⟨b, rfl⟩ : ∃ b, budget = b + 1 := ⟨budget - 1, by omega⟩
    rw [evaluate_sequence, h.enough (Nat.le_of_succ_le_succ hbudget), relabelled_pure, hafter]
  short {budget} hbudget := by
    cases budget with
    | zero => exact ⟨scope.label.text, rfl⟩
    | succ b =>
      obtain ⟨context, hfails⟩ := h.short (Nat.lt_of_succ_lt_succ hbudget)
      refine ⟨context, ?_⟩
      rw [evaluate_sequence, hfails]
      rfl

theorem empty : Needs 1 scope (.sequence []) (.sequence []) :=
  sequence (.of_forall fun _ => rfl) rfl

theorem form (h : Metered need
      (fun budget => evaluateNamed (evaluate budget) (scope.relabel name) name es)
      (scope.relabel name, v)) :
    Needs (need + 1) scope (callForm name es) v := sequence h rfl

theorem list (hname : name.text = listConstructor) (hes : NeedsEach scope need es vs) :
    Needs (need + 1) scope (callForm name es) (.sequence vs) := by
  have hspecial : SpecialForm.ofName? name.text = none := by
    rw [hname]
    rfl
  have hvalue : Metered 0 (fun _ => pure (scope.relabel name, .sequence vs))
      (scope.relabel name, Value.sequence vs) := .of_forall fun _ => rfl
  rw [← Nat.max_zero need]
  refine form ((hes.relabel name).metered.followedBy hvalue ?_ ?_)
  · intro budget h
    unfold evaluateNamed
    simp only [hspecial, h, pure_bind, if_pos hname]
  · exact fun h => evaluateNamed_of_error hspecial h

/-- A native that evaluates no code. -/
theorem native {native : Native} (hname : Native.ofName? name.text = some native)
    (hes : NeedsEach scope need es vs)
    (hcall : ∀ ev s, native.call ev s name vs = pure (s, v)) :
    Needs (need + 1) scope (callForm name es) v := by
  have harguments := (hes.relabel name).metered
  rw [← Nat.max_zero need]
  refine form (harguments.followedBy (.of_forall fun budget => hcall (evaluate budget) _) ?_ ?_)
  · exact fun h => Native.evaluateNamed_eq_call hname h
  · exact fun h => evaluateNamed_of_error (Native.ofName?_excludes hname).1 h

theorem arithmetic {op : Arithmetic} {f : Value} {a b n : Int}
    (hname : Native.ofName? name.text = some (.arithmetic op)) (he : Needs need scope e (.number a))
    (hf : Needs more scope f (.number b)) (hresult : op.compute a b = some n)
    (hrange : Number.InRange n) :
    Needs (max need more + 1) scope (callForm name [e, f]) (.number n) := by
  refine .native hname (.two he hf) fun ev s => ?_
  rw [Native.call_arithmetic, Arithmetic.checked_eq_ok_iff.2 ⟨hresult, hrange⟩]
  rfl

/-- A bound function that gets the last of its arguments. -/
theorem call {f : Function} (hname : name.IsOrdinary)
    (hbound : scope.get? name.text = some f.toValue) (hes : NeedsEach scope need es vs)
    (hlength : f.applied.length + vs.length = f.arity)
    (hbody : Needs more (f.callScope scope (f.applied ++ vs)) f.body v) :
    Needs (max need more + 1) scope (callForm name es) v := by
  have harguments := (hes.relabel name).metered
  have hscope : f.callScope (scope.relabel name) (f.applied ++ vs) =
      (f.callScope scope (f.applied ++ vs)).relabel name := scope.bindAll_relabel name _
  have hcalled : Needs more (f.callScope (scope.relabel name) (f.applied ++ vs)) f.body v := by
    rw [hscope]
    exact hbody.relabel name
  refine form (harguments.followedBy
    (hcalled.map fun result => (scope.relabel name, result.2)) ?_ ?_)
  · intro budget h
    rw [evaluateNamed_eq_apply hname h hbound, Function.apply_of_length_eq hlength]
    rfl
  · exact fun h => evaluateNamed_of_error hname.notSpecial h

/-- A choice needs nothing for the branch that it does not take. -/
theorem choose {test yes no : Value} {b : Bool}
    (hname : SpecialForm.ofName? name.text = some .choose)
    (htest : Needs need scope test (.boolean b))
    (hbranch : Needs more scope (if b then yes else no) v) :
    Needs (max need more + 1) scope (callForm name [test, yes, no]) v := by
  refine form ((htest.relabel name).followedBy (hbranch.relabel name) ?_ ?_)
  · intro budget h
    unfold evaluateNamed
    simp only [hname, SpecialForm.run, h, pure_bind]
    cases b <;> rfl
  · intro budget error h
    unfold evaluateNamed
    simp only [hname, SpecialForm.run, h]
    rfl

/-- Under a limit, a want of depth names the limit. -/
theorem evaluateWithin (h : Needs need scope e v) (limit : Nat) :
    (need ≤ limit → MiniLisp.evaluateWithin limit scope e = pure (scope, v)) ∧
    (limit < need → ∃ context,
      MiniLisp.evaluateWithin limit scope e = Run.fail (.depthExceeded context limit)) := by
  unfold MiniLisp.evaluateWithin
  constructor
  · intro henough
    rw [h.enough henough]
    rfl
  · intro hshort
    obtain ⟨context, hfails⟩ := h.short hshort
    rw [hfails]
    exact ⟨context, rfl⟩

end Needs

/-- A native that has its arguments may refuse them. -/
theorem NeedsEach.evaluateWithin_fail {native : Native} {error : Error} {limit : Nat}
    (hes : NeedsEach scope need es vs) (hname : Native.ofName? name.text = some native)
    (hcall : ∀ ev s, s.label = name → native.call ev s name vs = Run.fail error)
    (hdepth : error.withLimit limit = error) (hlimit : need < limit) :
    evaluateWithin limit scope (callForm name es) = Run.fail error := by
  obtain ⟨budget, rfl⟩ : ∃ budget, limit = budget + 1 := ⟨limit - 1, by omega⟩
  have hrow : evaluateEach (evaluate budget) (scope.relabel name) es =
      pure (scope.relabel name, vs) := (hes.relabel name).metered.enough (by omega)
  unfold evaluateWithin
  rw [Native.evaluate_callForm hname hrow, hcall _ _ rfl]
  exact congrArg Run.fail hdepth

end MiniLisp
