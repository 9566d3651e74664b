import MiniLisp.Proofs.Evaluation.Origin
import MiniLisp.Proofs.Lexing.Locality
import MiniLisp.Proofs.Reader.Shift
import MiniLisp.Proofs.Session.ReadingAhead

/-!
# Inputs in one source

A session can be given two inputs one after the other, or both in one source with a newline between
them. If the first can be read, this is the same: the newline ends its last token and any comment,
so the second is read as it is alone, further on (`readValues_newline_append`), and evaluation goes
on from the scope that the first leaves (`Session.evalEach_append_of_ok`). An error in the first
ends both (`Session.evalEach_append_of_error`).
-/

namespace MiniLisp

/-- The same error; one of reading is blamed on a character further on. -/
def Error.shift (k : Nat) : Error → Error
  | .read e => .read (e.shift k)
  | e => e

theorem Error.shift_of_isEvaluation {e : Error} (h : e.isEvaluation) (k : Nat) :
    e.shift k = e := by
  cases e with
  | read e => cases h
  | _ => rfl

/-! ## Reading -/

/-- A source after another one and a newline is read as it is alone, further on. -/
theorem readValues_newline_append [Host] {source : String} (h : (readValues source).error = none)
    (more : String) :
    (readValues (source ++ "\n" ++ more)).values =
        (readValues source).values ++ (readValues more).values ∧
      (readValues (source ++ "\n" ++ more)).error =
        (readValues more).error.map (ReadError.shift (source.length + 1)) := by
  obtain ⟨ts, hts, hexpressions⟩ := readValues_sound h
  have hchars : (source ++ "\n" ++ more).toList = source.toList ++ '\n' :: more.toList := by simp
  have hlex : lex (source ++ "\n" ++ more).toList 0 =
      ((lex more.toList 0).shift (source.length + 1)).prepend ts := by
    rw [hchars, ← String.length_toList]
    exact (lexFrom_newline_append hts more.toList).trans
      (congrArg _ (lexFrom_shift (source.toList.length + 1) 0 more.toList))
  have htokens : (Reader.ofString (source ++ "\n" ++ more)).tokens =
      ts ++ (lex more.toList 0).tokens.map (Token.shift (source.length + 1)) :=
    congrArg Lexing.tokens hlex
  have hshifted : Reader.Shifted (source.length + 1) (Reader.ofString more)
      ((Reader.ofString (source ++ "\n" ++ more)).past ts
        ((lex more.toList 0).tokens.map (Token.shift (source.length + 1)))) := by
    refine ⟨Reader.tokens_past _ htokens, ?_, ?_⟩
    · rw [Reader.error_past]
      exact congrArg Lexing.error hlex
    · rw [Reader.source_past]
      change (source ++ "\n" ++ more).toList.length = more.toList.length + (source.length + 1)
      rw [hchars, List.length_append, List.length_cons, String.length_toList]
      omega
  obtain ⟨hvalues, herror⟩ := hshifted.readAll
  have hall := hexpressions.readAll_append _ _ htokens
  rw [readValues, hall]
  exact ⟨congrArg ((readValues source).values ++ ·) hvalues, herror⟩

/-! ## Evaluation -/

namespace Session

variable {s : Session} {last v : Value} {es : List Value}

theorem evalEach_append_of_error {error : Error}
    (h : (evalEach .ok s last es).2.result = .error error)
    (ending : Value → Except Error Value) (fs : List Value) :
    evalEach ending s last (es ++ fs) = evalEach .ok s last es := by
  induction es generalizing s last with
  | nil => cases h
  | cons e es ih =>
    rw [List.cons_append]
    cases hstep : (evaluateWithin s.limit s.scope e).result with
    | error error => rw [evalEach_cons_of_error hstep, evalEach_cons_of_error hstep]
    | ok result =>
      rw [evalEach_cons_of_ok hstep] at h
      rw [evalEach_cons_of_ok hstep, evalEach_cons_of_ok hstep, ih h]

theorem evalEach_append_of_ok (h : (evalEach .ok s last es).2.result = .ok v)
    (ending : Value → Except Error Value) (fs : List Value) :
    evalEach ending s last (es ++ fs) = (evalEach ending (evalEach .ok s last es).1 v fs).map id
      (Run.prepend (evalEach .ok s last es).2.out) := by
  induction es generalizing s last with
  | nil =>
    cases h
    rfl
  | cons e es ih =>
    rw [List.cons_append]
    cases hstep : (evaluateWithin s.limit s.scope e).result with
    | error error =>
      rw [evalEach_cons_of_error hstep] at h
      cases h
    | ok result =>
      rw [evalEach_cons_of_ok hstep] at h
      rw [evalEach_cons_of_ok hstep, evalEach_cons_of_ok hstep, ih h]
      exact Prod.ext rfl (congrArg (Run.mk · _) (List.append_assoc _ _ _).symm)

theorem evalEach_error_cases {ending : Value → Except Error Value} {error : Error}
    (h : (evalEach ending s last es).2.result = .error error) :
    error.isEvaluation ∨ ∃ w, ending w = .error error := by
  induction es generalizing s last with
  | nil => exact .inr ⟨last, h⟩
  | cons e es ih =>
    cases hstep : (evaluateWithin s.limit s.scope e).result with
    | error error' =>
      rw [evalEach_cons_of_error hstep] at h
      cases h
      exact .inl (evaluateWithin_isEvaluation _ _ _ _ hstep)
    | ok result =>
      rw [evalEach_cons_of_ok hstep] at h
      exact ih h

-- Evaluation raises no error of reading, so an error further on is one of the ending.
theorem evalEach_shift (k : Nat) (ending : Value → Except Error Value) (s : Session) (last : Value)
    (es : List Value) : evalEach (fun v => (ending v).mapError (Error.shift k)) s last es =
      (evalEach ending s last es).map id (Run.mapError (Error.shift k)) := by
  induction es generalizing s last with
  | nil => rfl
  | cons e es ih =>
    cases hstep : (evaluateWithin s.limit s.scope e).result with
    | error error =>
      have hshift := Error.shift_of_isEvaluation (evaluateWithin_isEvaluation _ _ _ _ hstep) k
      rw [evalEach_cons_of_error hstep, evalEach_cons_of_error hstep]
      exact Prod.ext rfl (congrArg (Run.mk _ <| Except.error ·) hshift.symm)
    | ok result =>
      rw [evalEach_cons_of_ok hstep, evalEach_cons_of_ok hstep, ih]
      rfl

/-! ## Inputs -/

theorem endingOf_shift (k : Nat) (error : Option ReadError) :
    endingOf (error.map (ReadError.shift k)) =
      fun v => (endingOf error v).mapError (Error.shift k) := by
  cases error <;> rfl

-- The value before an input is of no account, unless the input is blank.
theorem evalEach_endingOf [Host] {source : String}
    (h : ¬ ((readValues source).values = [] ∧ (readValues source).error = none)) (s : Session)
    (last : Value) : evalEach (endingOf (readValues source).error) s last
      (readValues source).values = s.eval source := by
  rw [eval_eq]
  cases hvalues : (readValues source).values with
  | cons e es => rfl
  | nil =>
    cases herror : (readValues source).error with
    | none => exact absurd ⟨hvalues, herror⟩ h
    | some e => rfl

/-- An input fails in evaluation, or where its source cannot be read on. -/
theorem eval_error_cases [Host] {source : String} {error : Error}
    (h : (s.eval source).2.result = .error error) :
    error.isEvaluation ∨ ∃ e, (readValues source).error = some e ∧ error = .read e := by
  rw [eval_eq] at h
  exact (evalEach_error_cases h).imp_right fun ⟨_, hending⟩ => endingOf_eq_error hending

/-- Two inputs in one source, with a newline between them, are evaluated as one after the other: the
second in the session that the first leaves, and with its errors of reading blamed on characters
further on. An input that holds nothing leaves the value of the first. If the first fails in
evaluation, so does the whole, in the same way. -/
theorem eval_newline_append [Host] (s : Session) (source more : String)
    (hread : (readValues source).error = none) :
    (∀ error, (s.eval source).2.result = .error error →
      s.eval (source ++ "\n" ++ more) = s.eval source) ∧
    ∀ v, (s.eval source).2.result = .ok v →
      (s.eval (source ++ "\n" ++ more)).1 = ((s.eval source).1.eval more).1 ∧
      (s.eval (source ++ "\n" ++ more)).2.out =
        (s.eval source).2.out ++ ((s.eval source).1.eval more).2.out ∧
      ((readValues more).values = [] ∧ (readValues more).error = none →
        (s.eval (source ++ "\n" ++ more)).2.result = .ok v) ∧
      (¬ ((readValues more).values = [] ∧ (readValues more).error = none) →
        (s.eval (source ++ "\n" ++ more)).2.result =
          ((s.eval source).1.eval more).2.result.mapError (Error.shift (source.length + 1))) := by
  obtain ⟨hvalues, herror⟩ := readValues_newline_append hread more
  have heval := eval_of_error_eq_none hread s
  have hboth : s.eval (source ++ "\n" ++ more) =
      evalEach (endingOf ((readValues more).error.map (ReadError.shift (source.length + 1))))
        s .unit ((readValues source).values ++ (readValues more).values) := by
    rw [eval_eq, hvalues, herror]
  refine ⟨fun error hresult => ?_, fun v hresult => ?_⟩
  · rw [heval] at hresult ⊢
    rw [hboth, evalEach_append_of_error hresult]
  · have hresult' := hresult
    rw [heval] at hresult'
    rw [evalEach_append_of_ok hresult', ← heval, endingOf_shift, evalEach_shift] at hboth
    by_cases hblank : (readValues more).values = [] ∧ (readValues more).error = none
    · rw [hboth, eval_eq _ more, hblank.1, hblank.2]
      exact ⟨rfl, rfl, fun _ => rfl, fun h => absurd ⟨rfl, rfl⟩ h⟩
    · rw [hboth, evalEach_endingOf hblank]
      exact ⟨rfl, rfl, fun h => absurd h hblank, fun _ => rfl⟩

/-- The first input ends in a comment, which the newline ends, and the second in a quote of nothing.
An input that fails in evaluation keeps what follows it from being evaluated. -/
theorem eval_newline_append_commented :
    ∃ (s : Session) (source more : String) (error : Error) (v : Value), s = {} ∧
      source = "(def! x 1) (print \"a\") x; one" ∧ more = "(print \"b\") '" ∧
      (s.eval source).2.result = .ok v ∧
      (s.eval (source ++ "\n" ++ more)).2.out = ["a", "b"] ∧
      (s.eval (source ++ "\n" ++ more)).1 = ((s.eval source).1.eval more).1 ∧
      (s.eval (source ++ "\n" ++ more)).2.result =
        ((s.eval source).1.eval more).2.result.mapError (Error.shift 30) ∧
      (s.eval (source ++ "\n" ++ "; two")).2.result = .ok v ∧
      (s.eval "(def! x 1) y").2.result = .error error ∧
      s.eval ("(def! x 1) y" ++ "\n" ++ more) = s.eval "(def! x 1) y" := by
  obtain ⟨s, hs⟩ : ∃ s : Session, s = {} := ⟨_, rfl⟩
  obtain ⟨source, hsource⟩ : ∃ source, source = "(def! x 1) (print \"a\") x; one" := ⟨_, rfl⟩
  obtain ⟨v, hv⟩ : ∃ v, (s.eval source).2.result = .ok v := by
    rw [hs, hsource]
    decide +kernel
  obtain ⟨error, herror⟩ : ∃ error, (s.eval "(def! x 1) y").2.result = .error error := by
    rw [hs]
    decide +kernel
  have hout : (s.eval source).2.out = ["a"] ∧
      ((s.eval source).1.eval "(print \"b\") '").2.out = ["b"] := by
    rw [hs, hsource]
    decide +kernel
  have hlength : source.length + 1 = 30 := by
    rw [hsource]
    decide +kernel
  have hread : (readValues source).error = none := by
    rw [hsource]
    decide +kernel
  obtain ⟨hsession, hboth, -, hend⟩ :=
    (eval_newline_append s source "(print \"b\") '" hread).2 v hv
  obtain ⟨-, -, hblank, -⟩ := (eval_newline_append s source "; two" hread).2 v hv
  refine ⟨s, source, _, error, v, hs, hsource, rfl, hv, ?_, hsession, ?_, ?_, herror, ?_⟩
  · rw [hboth, hout.1, hout.2]
    rfl
  · rw [← hlength]
    exact hend (by decide +kernel)
  · exact hblank (by decide +kernel)
  · exact (eval_newline_append s "(def! x 1) y" _ (by decide +kernel)).1 error herror

end Session

end MiniLisp
