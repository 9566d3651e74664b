import MiniLisp.Proofs.Reader.Truncation
import MiniLisp.Proofs.Session.Concatenation

/-!
# What a failing input commits

An input that fails leaves the session that its completed expressions leave on their own: as if the
source ended with the last of them (`Session.failing_input_keeps_completed`). The expression that
fails has printed what it has printed, and is otherwise without effect.
-/

namespace MiniLisp.Session

/-- The number of expressions that complete, one after another, up to the first that fails. -/
def completed (s : Session) : List Value → Nat
  | [] => 0
  | e :: es =>
    match (evaluateWithin s.limit s.scope e).result with
    | .ok (scope, _) => completed { s with scope := scope } es + 1
    | .error _ => 0

/-- A source up to the end of the last expression that completes. -/
def completedPart [Host] (s : Session) (source : String) : String :=
  cutAfter source (s.completed (readValues source).values)

variable {s : Session} {e : Value} {es : List Value}

theorem completed_cons_of_ok {scope : Scope} {v : Value}
    (h : (evaluateWithin s.limit s.scope e).result = .ok (scope, v)) :
    s.completed (e :: es) = completed { s with scope := scope } es + 1 := by
  simp only [completed, h]

theorem completed_cons_of_error {error : Error}
    (h : (evaluateWithin s.limit s.scope e).result = .error error) : s.completed (e :: es) = 0 := by
  simp only [completed, h]

theorem completed_le_length (s : Session) (es : List Value) : s.completed es ≤ es.length := by
  induction es generalizing s with
  | nil => exact Nat.le_refl 0
  | cons e es ih =>
    cases hstep : (evaluateWithin s.limit s.scope e).result with
    | error error =>
      rw [completed_cons_of_error hstep]
      exact Nat.zero_le _
    | ok result =>
      rw [completed_cons_of_ok hstep]
      exact Nat.succ_le_succ (ih _)

theorem evalEach_take_completed (s : Session) (last : Value) (es : List Value) :
    ∃ v, (evalEach .ok s last (es.take (s.completed es))).2.result = .ok v := by
  induction es generalizing s last with
  | nil => exact ⟨last, rfl⟩
  | cons e es ih =>
    cases hstep : (evaluateWithin s.limit s.scope e).result with
    | error error =>
      rw [completed_cons_of_error hstep]
      exact ⟨last, rfl⟩
    | ok result =>
      rw [completed_cons_of_ok hstep, List.take_succ_cons, evalEach_cons_of_ok hstep]
      exact ih _ _

/-- The first expression that does not complete fails, in the session that those before it leave
and in all that follows it; or all complete, and what comes after them fails. -/
theorem evalEach_of_error {ending : Value → Except Error Value} {last : Value} {error : Error}
    (h : (evalEach ending s last es).2.result = .error error) {done : Session × Run Value}
    (hdone : evalEach .ok s last (es.take (s.completed es)) = done) :
    (evalEach ending s last es).1 = done.1 ∧
      ((∃ e, es[s.completed es]? = some e ∧
          (evaluateWithin s.limit done.1.scope e).result = .error error ∧
          (evalEach ending s last es).2.out =
            done.2.out ++ (evaluateWithin s.limit done.1.scope e).out) ∨
        (s.completed es = es.length ∧ (∃ v, ending v = .error error) ∧
          (evalEach ending s last es).2.out = done.2.out)) := by
  subst hdone
  induction es generalizing s last with
  | nil => exact ⟨rfl, .inr ⟨rfl, ⟨last, h⟩, rfl⟩⟩
  | cons e es ih =>
    cases hstep : (evaluateWithin s.limit s.scope e).result with
    | error error' =>
      rw [evalEach_cons_of_error hstep] at h
      cases h
      rw [completed_cons_of_error hstep, evalEach_cons_of_error hstep]
      exact ⟨rfl, .inl ⟨e, rfl, hstep, rfl⟩⟩
    | ok result =>
      rw [evalEach_cons_of_ok hstep] at h
      rw [completed_cons_of_ok hstep, List.take_succ_cons, evalEach_cons_of_ok hstep,
        evalEach_cons_of_ok hstep]
      obtain ⟨hsession, ⟨e', he', hfails, hout⟩ | ⟨hlength, hending, hout⟩⟩ := ih h
      -- Both runs print what this expression prints before what the others print.
      · refine ⟨hsession, .inl ⟨e', he', hfails, ?_⟩⟩
        exact (congrArg _ hout).trans (List.append_assoc _ _ _).symm
      · exact ⟨hsession, .inr ⟨congrArg Nat.succ hlength, hending, congrArg (_ ++ ·) hout⟩⟩

/-- An input that fails after some expressions have completed leaves what the source up to there
leaves, which is an input that succeeds. It has printed what that prints, and then what the failing
expression prints; where no expression can be read, nothing more. -/
theorem failing_input_keeps_completed [Host] (s : Session) (source : String) (error : Error)
    (h : (s.eval source).2.result = .error error) :
    (∃ v, (s.eval (s.completedPart source)).2.result = .ok v) ∧
      (readValues (s.completedPart source)).values =
        (readValues source).values.take (s.completed (readValues source).values) ∧
      (s.eval source).1 = (s.eval (s.completedPart source)).1 ∧
      (s.completed (readValues source).values = 0 → (s.eval source).1 = s) ∧
      ((∃ e, (readValues source).values[s.completed (readValues source).values]? = some e ∧
          (evaluateWithin s.limit (s.eval source).1.scope e).result = .error error ∧
          (s.eval source).2.out = (s.eval (s.completedPart source)).2.out ++
            (evaluateWithin s.limit (s.eval source).1.scope e).out) ∨
        (s.completed (readValues source).values = (readValues source).values.length ∧
          (∃ e, (readValues source).error = some e ∧ error = .read e) ∧
          (s.eval source).2.out = (s.eval (s.completedPart source)).2.out)) := by
  obtain ⟨hvalues, hread⟩ := readValues_cutAfter (completed_le_length s (readValues source).values)
  have hpart : evalEach .ok s .unit
      ((readValues source).values.take (s.completed (readValues source).values)) =
        s.eval (s.completedPart source) := by
    rw [completedPart, eval_of_error_eq_none hread, hvalues]
  obtain ⟨v, hv⟩ := evalEach_take_completed s .unit (readValues source).values
  rw [hpart] at hv
  rw [eval_eq s source] at h ⊢
  obtain ⟨hsession, hfails⟩ := evalEach_of_error h hpart
  rw [hsession]
  refine ⟨⟨v, hv⟩, hvalues, rfl, fun hzero => ?_, ?_⟩
  · rw [← hpart, hzero]
    rfl
  · exact hfails.imp_right fun ⟨hlength, ⟨w, hw⟩, hout⟩ =>
      ⟨hlength, endingOf_eq_error hw, hout⟩

/-- The third expression prints, defines a name and clears the scope before it comes to a name that
is not bound; nothing but what it printed is kept. The other source cannot be read to its end. -/
theorem failing_input_keeps_completed_clearing :
    ∃ (s : Session) (source broken : String) (error error' : Error), s = {} ∧
      source = "(def! x 1) (print \"a\") ; two\n(list (def! y (debug x)) (clear_scope) z) 3" ∧
      broken = "(def! x 1) ; one\n(def! y \"b" ∧
      (s.eval source).2.result = .error error ∧ (s.eval broken).2.result = .error error' ∧
      (s.eval source).1 = (s.eval "(def! x 1) (print \"a\")").1 ∧
      (s.eval source).2.out = ["a", "1"] ∧
      (s.eval "(def! x 1) (print \"a\")").2.out = ["a"] ∧
      (s.eval broken).1 = (s.eval "(def! x 1)").1 := by
  obtain ⟨s, hs⟩ : ∃ s : Session, s = {} := ⟨_, rfl⟩
  obtain ⟨source, hsource⟩ : ∃ source, source =
    "(def! x 1) (print \"a\") ; two\n(list (def! y (debug x)) (clear_scope) z) 3" := ⟨_, rfl⟩
  obtain ⟨broken, hbroken⟩ : ∃ broken, broken = "(def! x 1) ; one\n(def! y \"b" := ⟨_, rfl⟩
  obtain ⟨error, herror⟩ : ∃ error, (s.eval source).2.result = .error error := by
    rw [hs, hsource]
    decide +kernel
  obtain ⟨error', herror'⟩ : ∃ error', (s.eval broken).2.result = .error error' := by
    rw [hs, hbroken]
    decide +kernel
  have hpart : s.completedPart source = "(def! x 1) (print \"a\")" := by
    rw [hs, hsource]
    decide +kernel
  have hpart' : s.completedPart broken = "(def! x 1)" := by
    rw [hs, hbroken]
    decide +kernel
  have hout : (s.eval source).2.out = ["a", "1"] ∧
      (s.eval "(def! x 1) (print \"a\")").2.out = ["a"] := by
    rw [hs, hsource]
    decide +kernel
  obtain ⟨-, -, hkept, -⟩ := failing_input_keeps_completed s source error herror
  obtain ⟨-, -, hkept', -⟩ := failing_input_keeps_completed s broken error' herror'
  rw [hpart] at hkept
  rw [hpart'] at hkept'
  exact ⟨s, source, broken, error, error', hs, hsource, hbroken, herror, herror', hkept, hout.1,
    hout.2, hkept'⟩

end MiniLisp.Session
