import MiniLisp.Proofs.Evaluation.Nesting
import MiniLisp.Proofs.Session.Commit

/-!
# A list is a sequence

A session takes expressions one after another, and so does the form that makes a list of their
values. The session commits a scope after each and restores nothing; the form evaluates them under
its own label, as a row of arguments. The two agree on the values, the bindings, what is printed and
where they stop (`Session.list_form_evaluates_in_sequence`).
-/

namespace MiniLisp

theorem Run.mapError_bind {α β : Type} (f : Error → Error) (x : Run α) (g : α → Run β) :
    (x >>= g).mapError f = x.mapError f >>= fun a => (g a).mapError f := by
  rcases x with ⟨out, e | a⟩ <;> rfl

/-! ## Rows -/

theorem evaluateEach_evaluateWithin (limit : Nat) (scope : Scope) (es : List Value) :
    evaluateEach (evaluateWithin limit) scope es =
      (evaluateEach (evaluate limit) scope es).mapError (Error.withLimit limit) := by
  induction es generalizing scope with
  | nil => rfl
  | cons e es ih =>
    unfold evaluateEach
    simp only [ih, Run.mapError_bind]
    rfl

theorem evaluateEach_take {ev : Evaluator} {scope after : Scope} {es vs : List Value}
    (h : (evaluateEach ev scope es).result = .ok (after, vs)) (k : Nat) :
    ∃ between, (evaluateEach ev scope (es.take k)).result = .ok (between, vs.take k) := by
  induction es generalizing scope vs k with
  | nil =>
    cases h
    rw [List.take_nil]
    exact ⟨_, rfl⟩
  | cons e es ih =>
    cases k with
    | zero => exact ⟨scope, rfl⟩
    | succ k =>
      obtain ⟨next, v, ws, hv, hws, rfl⟩ := evaluateEach_cons_eq_ok h
      obtain ⟨between, htake⟩ := ih hws k
      refine ⟨between, Run.result_bind_eq_ok.2 ⟨(next, v), hv, ?_⟩⟩
      exact Run.result_bind_eq_ok.2 ⟨(between, ws.take k), htake, rfl⟩

section

variable {limit : Nat} {scope : Scope} {es : List Value} {out : List String}

theorem evaluateWithin_listForm_of_ok {after : Scope} {vs : List Value}
    (h : evaluateEach (evaluateWithin limit) scope es = ⟨out, .ok (after, vs)⟩) :
    evaluateWithin (limit + 1) scope (listForm es) = ⟨out, .ok (after, .sequence vs)⟩ := by
  have hform := evaluate_listForm limit scope es
  rw [evaluateEach_evaluateWithin] at h
  unfold evaluateWithin
  generalize evaluateEach (evaluate limit) scope es = row at h hform
  generalize evaluate (limit + 1) scope (listForm es) = form at hform
  rcases row with ⟨out', e | result⟩
  · cases h
  · cases h
    rw [Run.bind_ok_eq_after, Run.after_pure] at hform
    cases hform
    rfl

theorem Error.withLimit_cases (e : Error) (limit limit' : Nat) :
    e.withLimit limit' = e.withLimit limit ∨
      ∃ context, e.withLimit limit = .depthExceeded context limit ∧
        e.withLimit limit' = .depthExceeded context limit' := by
  cases e with
  | depthExceeded context n => exact .inr ⟨context, rfl, rfl⟩
  | _ => exact .inl rfl

theorem evaluateWithin_listForm_of_error {error : Error}
    (h : evaluateEach (evaluateWithin limit) scope es = ⟨out, .error error⟩) :
    ∃ error', evaluateWithin (limit + 1) scope (listForm es) = ⟨out, .error error'⟩ ∧
      (error' = error ∨ ∃ context context', error = .depthExceeded context limit ∧
        error' = .depthExceeded context' (limit + 1)) := by
  have hform := evaluate_listForm limit scope es
  rw [evaluateEach_evaluateWithin] at h
  unfold evaluateWithin
  generalize evaluateEach (evaluate limit) scope es = row at h hform
  generalize evaluate (limit + 1) scope (listForm es) = form at hform
  rcases row with ⟨out', e | result⟩
  · cases h
    rw [Run.bind_error] at hform
    cases hform with
    | same =>
      refine ⟨_, rfl, ?_⟩
      exact (e.withLimit_cases limit (limit + 1)).imp_right fun ⟨context, h⟩ =>
        ⟨context, context, h⟩
    | depth out n => exact ⟨_, rfl, .inr ⟨_, _, rfl, rfl⟩⟩
  · cases h

theorem evaluateWithin_listForm_append_of_error {error : Error}
    (h : evaluateEach (evaluateWithin limit) scope es = ⟨out, .error error⟩)
    (others : List Value) :
    evaluateWithin (limit + 1) scope (listForm (es ++ others)) =
      evaluateWithin (limit + 1) scope (listForm es) := by
  obtain ⟨error', hform, -⟩ := evaluateWithin_listForm_of_error h
  unfold evaluateWithin at hform ⊢
  rw [evaluate_listForm_eq] at hform
  rw [evaluate_listForm_eq, evaluate_listForm_eq, evaluateEach_append]
  -- The row fails inside the form as well, or the form would not.
  rcases hrow : evaluateEach (evaluate limit) (scope.relabel listName) es with ⟨out', e | result⟩
  · rfl
  · rw [hrow] at hform
    cases hform

end

namespace Session

variable {s : Session} {last : Value} {es : List Value}

/-- A session does with expressions what a row of them does, and keeps the last value. -/
theorem evalEach_run (s : Session) (last : Value) (es : List Value) :
    (evalEach .ok s last es).2 = (do
      let (_, vs) ← evaluateEach (evaluateWithin s.limit) s.scope es
      pure (vs.getLastD last)) := by
  induction es generalizing s last with
  | nil => rfl
  | cons e es ih =>
    unfold evaluateEach
    rcases hstep : evaluateWithin s.limit s.scope e with ⟨out, error | ⟨scope, v⟩⟩
    · rw [evalEach_cons_of_error (by rw [hstep]), hstep]
      rfl
    · have hothers := ih { s with scope := scope } v
      rw [evalEach_cons_of_ok (by rw [hstep]), hstep]
      simp only [Run.bind_ok_eq_after, Run.bind_after, bind_assoc, pure_bind, List.getLastD_cons]
      exact congrArg (Run.prepend out) hothers

theorem evalEach_scope {after : Scope} {vs : List Value}
    (h : (evaluateEach (evaluateWithin s.limit) s.scope es).result = .ok (after, vs)) :
    (evalEach .ok s last es).1.scope = after := by
  induction es generalizing s last vs with
  | nil =>
    cases h
    rfl
  | cons e es ih =>
    obtain ⟨next, v, ws, hv, hws, -⟩ := evaluateEach_cons_eq_ok h
    rw [evalEach_cons_of_ok hv]
    exact ih (s := { s with scope := next }) hws

/-- What comes after the expression that fails is of no account. -/
theorem evalEach_take_completed_succ (s : Session) (last : Value) (es : List Value) :
    evalEach .ok s last (es.take (s.completed es + 1)) = evalEach .ok s last es := by
  induction es generalizing s last with
  | nil => rfl
  | cons e es ih =>
    rw [List.take_succ_cons]
    cases hstep : (evaluateWithin s.limit s.scope e).result with
    | error error => rw [evalEach_cons_of_error hstep, evalEach_cons_of_error hstep]
    | ok result =>
      rw [completed_cons_of_ok hstep, evalEach_cons_of_ok hstep, evalEach_cons_of_ok hstep, ih]

/-- The value of each expression is the one that the session has once it has taken so many. -/
theorem evalEach_take_of_ok {after : Scope} {vs : List Value}
    (h : (evaluateEach (evaluateWithin s.limit) s.scope es).result = .ok (after, vs)) {i : Nat}
    {v : Value} (hv : vs[i]? = some v) :
    (evalEach .ok s last (es.take (i + 1))).2.result = .ok v := by
  obtain ⟨between, htake⟩ := evaluateEach_take h (i + 1)
  have hlast : (vs.take (i + 1)).getLastD last = v := by
    rw [List.getLastD_eq_getLast?, List.getLast?_take]
    simp [hv]
  rw [evalEach_run]
  exact Run.result_bind_eq_ok.2 ⟨(between, vs.take (i + 1)), htake, congrArg Except.ok hlast⟩

/-- The first expression that does not complete is the one whose error the session ends in. -/
theorem exists_failing {error : Error} (h : (evalEach .ok s last es).2.result = .error error) :
    ∃ e, es[s.completed es]? = some e ∧
      (evaluateWithin s.limit (evalEach .ok s last es).1.scope e).result = .error error := by
  obtain ⟨hsession, ⟨e, he, hfails, -⟩ | ⟨-, ⟨v, hv⟩, -⟩⟩ := evalEach_of_error h rfl
  · rw [hsession]
    exact ⟨e, he, hfails⟩
  · cases hv

theorem row_of_error {error : Error} (h : (evalEach .ok s last es).2.result = .error error) :
    ∃ out, evaluateEach (evaluateWithin s.limit) s.scope es = ⟨out, .error error⟩ := by
  rw [evalEach_run] at h
  rcases hrow : evaluateEach (evaluateWithin s.limit) s.scope es with ⟨out, e | result⟩
  · rw [hrow] at h
    cases h
    exact ⟨out, rfl⟩
  · rw [hrow] at h
    cases h

/-- Where an expression fails, other expressions may stand after it, for the form and the session
alike. -/
theorem replaced_after_failing {error : Error}
    (h : (evalEach .ok s last es).2.result = .error error) (others : List Value) :
    let replaced := es.take (s.completed es + 1) ++ others
    evaluateWithin (s.limit + 1) s.scope (listForm replaced) =
        evaluateWithin (s.limit + 1) s.scope (listForm es) ∧
      evalEach .ok s last replaced = evalEach .ok s last es := by
  have hfront := evalEach_take_completed_succ s last es
  rw [← hfront] at h
  obtain ⟨out, hrow⟩ := row_of_error h
  have hrest := evaluateWithin_listForm_append_of_error hrow (es.drop (s.completed es + 1))
  rw [List.take_append_drop] at hrest
  refine ⟨?_, (evalEach_append_of_error h .ok others).trans hfront⟩
  rw [evaluateWithin_listForm_append_of_error hrow, hrest]

/-- Where the form completes, so does the session, with the bindings and the values of the form. -/
theorem values_of_listForm (last : Value) {after : Scope} {w : Value}
    (h : (evaluateWithin (s.limit + 1) s.scope (listForm es)).result = .ok (after, w)) :
    after.frames = (evalEach .ok s last es).1.scope.frames ∧ after.label = s.scope.label ∧
      ∃ vs, w = .sequence vs ∧ vs.length = es.length ∧
        ∀ i v, vs[i]? = some v → (evalEach .ok s last (es.take (i + 1))).2.result = .ok v := by
  have hlabel : after.label = s.scope.label :=
    evaluate_keepsLabel _ _ _ _ _ (Run.mapError_result_eq_ok.1 h)
  rcases hrow : evaluateEach (evaluateWithin s.limit) s.scope es with ⟨out, error | ⟨next, vs⟩⟩
  · obtain ⟨error', hform, -⟩ := evaluateWithin_listForm_of_error hrow
    rw [hform] at h
    cases h
  · rw [evaluateWithin_listForm_of_ok hrow] at h
    cases h
    have hresult : (evaluateEach (evaluateWithin s.limit) s.scope es).result =
        .ok (after, vs) := by rw [hrow]
    exact ⟨congrArg Scope.frames (evalEach_scope hresult).symm, hlabel, vs, rfl,
      length_evaluateEach hresult, fun i v => evalEach_take_of_ok hresult⟩

/-! ## The form and the session -/

/-- The form that makes a list of the values of expressions is given a level more, and does with
them what the session does. Both complete or both fail; they print the same and leave the same
bindings, and the list holds the value of every expression in its place. If an expression fails,
the form fails with its error, save that a want of depth names another limit and perhaps another
label, and neither evaluates anything after it. -/
theorem list_form_evaluates_in_sequence (s : Session) (es : List Value) :
    let form := evaluateWithin (s.limit + 1) s.scope (listForm es)
    let sequence := evalEach .ok s .unit es
    form.out = sequence.2.out ∧
    ((∃ v, sequence.2.result = .ok v) ↔ ∃ after w, form.result = .ok (after, w)) ∧
    (∀ after w, form.result = .ok (after, w) →
      after.frames = sequence.1.scope.frames ∧ after.label = s.scope.label ∧
      ∃ vs, w = .sequence vs ∧ vs.length = es.length ∧
        ∀ i v, vs[i]? = some v → (evalEach .ok s .unit (es.take (i + 1))).2.result = .ok v) ∧
    ∀ error, sequence.2.result = .error error →
      (∃ e, es[s.completed es]? = some e ∧
        (evaluateWithin s.limit sequence.1.scope e).result = .error error) ∧
      (∃ error', form.result = .error error' ∧
        (error' = error ∨ ∃ context context', error = .depthExceeded context s.limit ∧
          error' = .depthExceeded context' (s.limit + 1))) ∧
      ∀ others, let replaced := es.take (s.completed es + 1) ++ others
        evaluateWithin (s.limit + 1) s.scope (listForm replaced) = form ∧
          evalEach .ok s .unit replaced = sequence := by
  intro form sequence
  have hrun : sequence.2 = (do
      let (_, vs) ← evaluateEach (evaluateWithin s.limit) s.scope es
      pure (vs.getLastD .unit)) := evalEach_run s .unit es
  rcases hrow : evaluateEach (evaluateWithin s.limit) s.scope es with ⟨out, error | ⟨after, vs⟩⟩
  · obtain ⟨error', hform, herror⟩ := evaluateWithin_listForm_of_error hrow
    have hform : form = ⟨out, .error error'⟩ := hform
    have hsequence : sequence.2 = ⟨out, .error error⟩ := by rw [hrun, hrow, Run.bind_error]
    have hfails : sequence.2.result = .error error := by rw [hsequence]
    refine ⟨by rw [hform, hsequence], ?_, fun after w => values_of_listForm .unit, ?_⟩
    · rw [hform, hsequence]
      exact ⟨nofun, nofun⟩
    · intro error'' h
      cases hfails.symm.trans h
      exact ⟨exists_failing hfails, ⟨error', by rw [hform], herror⟩,
        replaced_after_failing hfails⟩
  · have hform : form = ⟨out, .ok (after, .sequence vs)⟩ := evaluateWithin_listForm_of_ok hrow
    have hsequence : sequence.2 = ⟨out, .ok (vs.getLastD .unit)⟩ := by
      rw [hrun, hrow, Run.bind_ok_eq_after, Run.after_pure]
    refine ⟨by rw [hform, hsequence], ?_, fun after w => values_of_listForm .unit, ?_⟩
    · rw [hform, hsequence]
      exact iff_of_true ⟨_, rfl⟩ ⟨_, _, rfl⟩
    · intro error h
      rw [hsequence] at h
      cases h

/-- The third expression reads what the first one binds. With another third expression both fail
before they print the last line, and a want of depth shows both limits and both labels. -/
theorem list_form_evaluates_in_sequence_printing :
    ∃ (s : Session) (es failing deep : List Value) (after : Scope), s.limit = 1 ∧
      (evalEach .ok s .unit es).2.result = .ok (.number 1) ∧
      (evaluateWithin 2 s.scope (listForm es)).result =
        .ok (after, .sequence [.unit, .unit, .number 1]) ∧
      after.frames = (evalEach .ok s .unit es).1.scope.frames ∧
      (evalEach .ok s .unit failing).2.result = .error (.unbound "y") ∧
      (evaluateWithin 2 s.scope (listForm failing)).result = .error (.unbound "y") ∧
      (evaluateWithin 2 s.scope (listForm failing)).out = ["a"] ∧
      (evalEach .ok s .unit deep).2.result = .error (.depthExceeded "main" 1) ∧
      (evaluateWithin 2 s.scope (listForm deep)).result = .error (.depthExceeded "list" 2) := by
  let s : Session := { limit := 1 }
  let print (line : String) : Value := .sequence [.symbol ⟨"print", by decide⟩, .text line]
  let define : Value :=
    .sequence [.symbol ⟨"def!", by decide⟩, .symbol ⟨"x", by decide⟩, .number 1]
  let es : List Value := [define, print "a", .symbol ⟨"x", by decide⟩]
  let failing : List Value := [define, print "a", .symbol ⟨"y", by decide⟩, print "b"]
  let deep : List Value := [.sequence [.sequence []]]
  have hform : (evaluateWithin 2 s.scope (listForm es)).result =
      .ok (s.scope.bind "x" (.number 1), .sequence [.unit, .unit, .number 1]) := rfl
  have hfails : (evalEach .ok s .unit failing).2.result = .error (.unbound "y") := rfl
  have hout : (evalEach .ok s .unit failing).2.out = ["a"] := rfl
  obtain ⟨-, -, hkept, -⟩ := list_form_evaluates_in_sequence s es
  obtain ⟨hsame, -, -, hfailing⟩ := list_form_evaluates_in_sequence s failing
  obtain ⟨-, ⟨error, herror, rfl | ⟨context, context', hdepth, -⟩⟩, -⟩ := hfailing _ hfails
  · exact ⟨s, es, failing, deep, _, rfl, rfl, hform, (hkept _ _ hform).1, hfails, herror,
      hsame.trans hout, rfl, rfl⟩
  · cases hdepth

end Session

end MiniLisp
