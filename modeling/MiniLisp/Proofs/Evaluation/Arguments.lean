import MiniLisp.Proofs.Evaluation.Depth
import MiniLisp.Proofs.Evaluation.Label

/-!
# Arguments and calls

How a form comes by the arguments of its call, and what the call does with them. Evaluating two rows
of expressions one after the other is evaluating them as one row (`evaluateEach_append`); quoted
values come out as they went in (`evaluateEach_quoted`); the parameters of a call evaluate to what
they were bound to (`evaluateEach_parameters`); and the label matters to none of this
(`evaluateEach_relabel`). A name that is not built in calls the function it is bound to once its
arguments are evaluated (`evaluateNamed_eq_apply`).
-/

namespace MiniLisp

theorem Run.result_bind_eq_ok {α β : Type} {x : Run α} {f : α → Run β} {b : β} :
    (x >>= f).result = .ok b ↔ ∃ a, x.result = .ok a ∧ (f a).result = .ok b := by
  rcases x with ⟨out, e | a⟩
  · simp only [bind_error, reduceCtorEq, false_and, exists_false]
  · simp only [bind_ok, Except.ok.injEq, exists_eq_left']

/-! ## Rows of expressions -/

variable {ev : Evaluator}

-- A row that has values has one for its first expression, and values for the others.
theorem evaluateEach_cons_eq_ok {scope after : Scope} {e : Value} {es vs : List Value}
    (h : (evaluateEach ev scope (e :: es)).result = .ok (after, vs)) : ∃ between v ws,
      (ev scope e).result = .ok (between, v) ∧
        (evaluateEach ev between es).result = .ok (after, ws) ∧ vs = v :: ws := by
  unfold evaluateEach at h
  obtain ⟨⟨between, v⟩, hv, h⟩ := Run.result_bind_eq_ok.1 h
  obtain ⟨⟨last, ws⟩, hws, h⟩ := Run.result_bind_eq_ok.1 h
  cases h
  exact ⟨between, v, ws, hv, hws, rfl⟩

theorem length_evaluateEach {es vs : List Value} {scope after : Scope}
    (h : (evaluateEach ev scope es).result = .ok (after, vs)) : vs.length = es.length := by
  induction es generalizing scope after vs with
  | nil =>
    cases h
    rfl
  | cons e es ih =>
    obtain ⟨between, v, ws, -, hws, rfl⟩ := evaluateEach_cons_eq_ok h
    rw [List.length_cons, List.length_cons, ih hws]

theorem evaluateEach_append (scope : Scope) (xs ys : List Value) :
    evaluateEach ev scope (xs ++ ys) = (do
      let (between, vs) ← evaluateEach ev scope xs
      let (after, ws) ← evaluateEach ev between ys
      pure (after, vs ++ ws)) := by
  induction xs generalizing scope with
  | nil =>
    simp only [List.nil_append, evaluateEach, pure_bind]
    exact (bind_pure _).symm
  | cons x xs ih => simp only [List.cons_append, evaluateEach, ih, bind_assoc, pure_bind]

theorem evaluateEach_quoted (budget : Nat) (scope : Scope) (vs : List Value) :
    evaluateEach (evaluate budget) scope (vs.map .quoted) = pure (scope, vs) := by
  induction vs with
  | nil => rfl
  | cons v vs ih =>
    have hv : evaluate budget scope (.quoted v) = pure (scope, v) := by simp only [evaluate]
    simp only [List.map_cons, evaluateEach, hv, ih, pure_bind]

theorem evaluateEach_symbols (budget : Nat) (scope : Scope) {names : List Name}
    {vs : List Value} (h : names.map (fun name => scope.get? name.text) = vs.map some) :
    evaluateEach (evaluate budget) scope (names.map .symbol) = pure (scope, vs) := by
  induction names generalizing vs with
  | nil =>
    have hvs : vs = [] := List.map_eq_nil_iff.1 h.symm
    rw [hvs]
    rfl
  | cons name names ih =>
    cases vs with
    | nil => cases h
    | cons v vs =>
      obtain ⟨hv, hvs⟩ := List.cons.inj h
      have hname : evaluate budget scope (.symbol name) = pure (scope, v) := by
        simp only [evaluate, hv]
      simp only [List.map_cons, evaluateEach, hname, ih hvs, pure_bind]

/-! ## Parameters -/

theorem Scope.label_bindAll (s : Scope) (pairs : List (String × Value)) :
    (s.bindAll pairs).label = s.label := by
  induction pairs generalizing s with
  | nil => rfl
  | cons pair pairs ih => exact ih (s.bind pair.1 pair.2)

theorem Scope.bindAll_relabel (s : Scope) (label : Name) (pairs : List (String × Value)) :
    (s.relabel label).bindAll pairs = (s.bindAll pairs).relabel label := by
  induction pairs generalizing s with
  | nil => rfl
  | cons pair pairs ih => exact ih (s.bind pair.1 pair.2)

theorem Scope.get?_bindAll_of_forall_ne (s : Scope) {pairs : List (String × Value)} {name : String}
    (h : ∀ pair ∈ pairs, pair.1 ≠ name) : (s.bindAll pairs).get? name = s.get? name := by
  induction pairs generalizing s with
  | nil => rfl
  | cons pair pairs ih =>
    obtain ⟨hpair, hpairs⟩ := List.forall_mem_cons.1 h
    have hrest : (s.bindAll (pair :: pairs)).get? name = (s.bind pair.1 pair.2).get? name :=
      ih (s.bind pair.1 pair.2) hpairs
    rw [hrest, Scope.get?_bind, if_neg (Ne.symm hpair)]

-- A later parameter of the same name would shadow an earlier one.
theorem Scope.map_get?_bindAll_zip (s : Scope) {names : List String} {vs : List Value}
    (hnodup : names.Nodup) (hlength : names.length = vs.length) :
    names.map (s.bindAll (names.zip vs)).get? = vs.map some := by
  induction names generalizing s vs with
  | nil =>
    have hvs : vs = [] := List.eq_nil_of_length_eq_zero hlength.symm
    rw [hvs]
    rfl
  | cons name names ih =>
    cases vs with
    | nil => cases hlength
    | cons v vs =>
      obtain ⟨hname, hnames⟩ := List.nodup_cons.1 hnodup
      have hne : ∀ pair ∈ names.zip vs, pair.1 ≠ name := by
        intro pair hpair heq
        have hmem : pair.1 ∈ names := (List.of_mem_zip hpair).1
        rw [heq] at hmem
        exact hname hmem
      have hfirst : (s.bindAll ((name :: names).zip (v :: vs))).get? name = some v := by
        have hrest := Scope.get?_bindAll_of_forall_ne (s.bind name v) hne
        rw [Scope.get?_bind, if_pos rfl] at hrest
        exact hrest
      have hothers := ih (s.bind name v) hnames (Nat.succ.inj hlength)
      rw [List.map_cons, List.map_cons, hfirst]
      exact congrArg _ hothers

/-- In the scope of a call the parameters evaluate to the arguments, whatever else is bound. -/
theorem evaluateEach_parameters (budget : Nat) (scope : Scope) (label : Name) {names : List Name}
    {vs : List Value} (hnodup : (names.map Name.text).Nodup) (hlength : names.length = vs.length) :
    evaluateEach (evaluate budget)
        ((scope.bindAll ((names.map Name.text).zip vs)).relabel label) (names.map .symbol) =
      pure ((scope.bindAll ((names.map Name.text).zip vs)).relabel label, vs) := by
  apply evaluateEach_symbols
  have hget := Scope.map_get?_bindAll_zip scope hnodup (by rw [List.length_map, hlength])
  rw [List.map_map] at hget
  exact hget

/-! ## Labels -/

theorem evaluate_relabel {budget : Nat} {scope : Scope} {e : Value} (c : Name)
    (h : ¬ (evaluate budget scope e).OutOfDepth) :
    evaluate budget (scope.relabel c) e = relabelled c (evaluate budget scope e) := by
  have hsame : SameUpToLabel scope.label c (evaluate budget scope e)
      (evaluate budget (scope.relabel c) e) := evaluate_sameUpToLabel budget scope.frames e
  generalize evaluate budget scope e = x at h hsame
  generalize evaluate budget (scope.relabel c) e = y at hsame
  cases hsame with
  | ok out frames v =>
    simp only [relabelled, Run.bind_ok, Run.pure_eq, List.append_nil]
    rfl
  | error out e => rfl
  | depth out limit => exact absurd ⟨scope.label.text, limit, rfl⟩ h

theorem evaluateEach_relabel {budget : Nat} {scope : Scope} {es : List Value} (c : Name)
    (h : ¬ (evaluateEach (evaluate budget) scope es).OutOfDepth) :
    evaluateEach (evaluate budget) (scope.relabel c) es = (do
      let (after, vs) ← evaluateEach (evaluate budget) scope es
      pure (after.relabel c, vs)) := by
  induction es generalizing scope with
  | nil => rfl
  | cons e es ih =>
    unfold evaluateEach at h ⊢
    have hfirst : ¬ (evaluate budget scope e).OutOfDepth := fun hdepth => h (hdepth.bind _).1
    rw [evaluate_relabel c hfirst, relabelled]
    simp only [bind_assoc, pure_bind]
    rcases hrun : evaluate budget scope e with ⟨out, error | ⟨between, v⟩⟩
    · rfl
    · have hrest : ¬ (evaluateEach (evaluate budget) between es).OutOfDepth := by
        intro hdepth
        apply h
        rw [hrun]
        exact (hdepth.bind _).1
      rw [Run.bind_ok, Run.bind_ok, ih hrest]
      simp only [bind_assoc, pure_bind]

/-! ## Parts of runs -/

/-- The run that prints some lines before all else. -/
def Run.after {α : Type} (out : List String) (x : Run α) : Run α := ⟨out ++ x.out, x.result⟩

theorem Run.bind_ok_eq_after {α β : Type} (out : List String) (a : α) (f : α → Run β) :
    (⟨out, .ok a⟩ : Run α) >>= f = (f a).after out := rfl

theorem Run.after_after {α : Type} (out out' : List String) (x : Run α) :
    (x.after out').after out = x.after (out ++ out') := by
  simp only [Run.after, List.append_assoc]

theorem Run.bind_after {α β : Type} (out : List String) (x : Run α) (f : α → Run β) :
    x.after out >>= f = (x >>= f).after out := by
  rcases x with ⟨out', e | a⟩
  · rfl
  · simp only [Run.after, Run.bind_ok, List.append_assoc]

theorem Run.after_pure {α : Type} (out : List String) (a : α) :
    (pure a : Run α).after out = ⟨out, .ok a⟩ := by
  simp only [Run.after, Run.pure_eq, List.append_nil]

/-- A run whose value is handed to a caller, which keeps its own scope. -/
def Run.returningTo (caller : Scope) (x : Run (Scope × Value)) : Run (Scope × Value) := do
  let (_, v) ← x
  pure (caller, v)

namespace Run

variable {caller : Scope} {x : Run (Scope × Value)}

theorem returningTo_relabelled (c : Name) :
    (relabelled c x).returningTo caller = x.returningTo caller := by
  simp only [returningTo, relabelled, bind_assoc, pure_bind]

theorem relabelled_returningTo (c : Name) :
    relabelled c (x.returningTo caller) = x.returningTo (caller.relabel c) := by
  simp only [returningTo, relabelled, bind_assoc, pure_bind]

theorem eq_of_returningTo_result {after : Scope} {v : Value}
    (h : (x.returningTo caller).result = .ok (after, v)) : after = caller := by
  obtain ⟨_, -, hresult⟩ := result_bind_eq_ok.1 h
  cases hresult
  rfl

end Run

theorem relabelled_pure (c : Name) (scope : Scope) (v : Value) :
    relabelled c (pure (scope, v)) = pure (scope.relabel c, v) := pure_bind _ _

theorem relabelled_after (c : Name) (out : List String) (x : Run (Scope × Value)) :
    relabelled c (x.after out) = (relabelled c x).after out := Run.bind_after out x _

/-! ## Application -/

theorem Function.apply_receive (f : Function) (ev : Evaluator) (scope : Scope)
    (xs ys : List Value) : (f.receive xs).apply ev scope ys = f.apply ev scope (xs ++ ys) := by
  have happlied : (f.receive xs).applied ++ ys = f.applied ++ (xs ++ ys) :=
    List.append_assoc f.applied xs ys
  unfold Function.apply
  rw [happlied, f.receive_append xs ys]
  rfl

theorem Function.apply_of_length_lt {f : Function} {arguments : List Value}
    (h : f.applied.length + arguments.length < f.arity) (ev : Evaluator) (scope : Scope) :
    f.apply ev scope arguments = pure (scope, (f.receive arguments).toValue) := by
  unfold Function.apply
  rw [if_pos (by rw [List.length_append]; exact h)]

theorem Function.apply_of_length_eq {f : Function} {arguments : List Value}
    (h : f.applied.length + arguments.length = f.arity) (ev : Evaluator) (scope : Scope) :
    f.apply ev scope arguments =
      (ev (f.callScope scope (f.applied ++ arguments)) f.body).returningTo scope := by
  have hlength : (f.applied ++ arguments).length = f.arity := by
    rw [List.length_append]
    exact h
  unfold Function.apply
  rw [if_neg (by omega), if_neg (by omega)]
  rfl

theorem Function.apply_of_lt_length {f : Function} {arguments : List Value}
    (h : f.arity < f.applied.length + arguments.length) (ev : Evaluator) (scope : Scope) :
    f.apply ev scope arguments = Run.fail
      (.tooManyArguments scope.label.text f.arity (f.applied.length + arguments.length)) := by
  rw [← List.length_append] at h ⊢
  unfold Function.apply
  rw [if_neg (Nat.not_lt.2 (Nat.le_of_lt h)), if_pos h]

/-! ## Calls of bound functions -/

/-- A name that means, at the head of a form, what the scope binds it to. -/
structure Name.IsOrdinary (name : Name) : Prop where
  notSpecial : SpecialForm.ofName? name.text = none
  notList : name.text ≠ listConstructor
  notNative : Native.ofName? name.text = none

/-- The form that calls a name on expressions. -/
def callForm (name : Name) (es : List Value) : Value := .sequence (.symbol name :: es)

theorem evaluate_sequence (budget : Nat) (scope : Scope) (items : List Value) :
    evaluate (budget + 1) scope (.sequence items) =
      relabelled scope.label (evaluateForm (evaluate budget) scope items) := rfl

theorem evaluateForm_symbol (scope : Scope) (name : Name) (es : List Value) :
    evaluateForm ev scope (.symbol name :: es) = evaluateNamed ev (scope.relabel name) name es :=
  rfl

section

variable {scope : Scope} {name : Name} {es : List Value} {out : List String}

theorem evaluateNamed_of_error {error : Error} (hspecial : SpecialForm.ofName? name.text = none)
    (hes : evaluateEach ev scope es = ⟨out, .error error⟩) :
    evaluateNamed ev scope name es = ⟨out, .error error⟩ := by
  unfold evaluateNamed
  simp only [hspecial, hes, Run.bind_error]

theorem evaluateNamed_eq_apply (hname : name.IsOrdinary) {after : Scope} {vs : List Value}
    {f : Function} (hes : evaluateEach ev scope es = ⟨out, .ok (after, vs)⟩)
    (hbound : after.get? name.text = some f.toValue) :
    evaluateNamed ev scope name es = (f.apply ev after vs).after out := by
  unfold evaluateNamed
  simp only [hname.notSpecial, hes, Run.bind_ok, if_neg hname.notList, hname.notNative, hbound,
    Value.toFunction?_toValue]
  rfl

end

end MiniLisp
