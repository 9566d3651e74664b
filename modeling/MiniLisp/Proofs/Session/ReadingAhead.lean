import MiniLisp.Proofs.Reader.Streaming
import MiniLisp.Session

/-!
# Reading ahead

A session evaluates each expression of an input before it reads the next one. Reading has no effect
on evaluation, nor evaluation on reading. So nothing changes if the whole input is read first and
its values are evaluated in a row afterwards, as far as none of them fails (`Session.eval_eq`).
-/

namespace MiniLisp.Session

/-- Evaluates expressions in order. If all complete, the run ends in `ending`, given the value of
the last one, or else in `last`. -/
def evalEach (ending : Value → Except Error Value) :
    Session → Value → List Value → Session × Run Value
  | s, last, [] => (s, Run.ofExcept (ending last))
  | s, _, e :: es =>
    let step := evaluateWithin s.limit s.scope e
    match step.result with
    | .error error => (s, ⟨step.out, .error error⟩)
    | .ok (scope, v) =>
      let (s, rest) := evalEach ending { s with scope := scope } v es
      (s, ⟨step.out ++ rest.out, rest.result⟩)

section

variable {ending : Value → Except Error Value} {s : Session} {last v e : Value} {es : List Value}

theorem evalEach_cons_of_error {error : Error}
    (h : (evaluateWithin s.limit s.scope e).result = .error error) :
    evalEach ending s last (e :: es) =
      (s, ⟨(evaluateWithin s.limit s.scope e).out, .error error⟩) := by
  rw [evalEach]
  simp only [h]

theorem evalEach_cons_of_ok {scope : Scope}
    (h : (evaluateWithin s.limit s.scope e).result = .ok (scope, v)) :
    evalEach ending s last (e :: es) = (evalEach ending { s with scope := scope } v es).map id
      (Run.prepend (evaluateWithin s.limit s.scope e).out) := by
  rw [evalEach]
  simp only [h]
  rfl

end

/-- What an input ends in after its last value, given the error, if any, that ends its reading. -/
def endingOf (error : Option ReadError) (v : Value) : Except Error Value :=
  match error with
  | some e => .error (.read e)
  | none => .ok v

-- After its last value an input fails only where its source cannot be read on.
theorem endingOf_eq_error {read : Option ReadError} {v : Value} {error : Error}
    (h : endingOf read v = .error error) : ∃ e, read = some e ∧ error = .read e := by
  cases read with
  | none => cases h
  | some e =>
    cases h
    exact ⟨e, rfl, rfl⟩

variable [Host]

/-- Evaluating what a stream has ahead, and reading it all first. -/
theorem evalAhead_eq (s : Session) (last : Value) (stream : TokenStream) :
    s.evalAhead last stream = evalEach (endingOf stream.toReader.readAll.error) s last
      stream.toReader.readAll.values := by
  fun_induction evalAhead s last stream with
  | case1 s last stream e after hpeek =>
    obtain ⟨-, htokens, herror⟩ := TokenStream.peek_eq_error hpeek
    rw [Reader.readAll_of_error htokens herror]
    rfl
  | case2 s last stream after hpeek =>
    obtain ⟨-, htokens, herror⟩ := TokenStream.peek_eq_none hpeek
    rw [Reader.readAll_of_tokens_eq_nil htokens herror]
    rfl
  | case3 s last stream t peeked hpeek e later hlater hparse =>
    rw [TokenStream.readAll_of_parse_error hpeek (congrArg Parsed.outcome hparse)]
    rfl
  | case4 s last stream t peeked hpeek e later hlater hparse hle hpos step error herror =>
    rw [TokenStream.readAll_of_parse_ok hpeek (congrArg Parsed.outcome hparse),
      evalEach_cons_of_error herror]
  | case5 s last stream t peeked hpeek e later hlater hparse hle hpos step scope v hv after rest
      hrest ih =>
    rw [TokenStream.readAll_of_parse_ok hpeek (congrArg Parsed.outcome hparse),
      evalEach_cons_of_ok hv, ← ih, hrest]
    rfl

theorem eval_eq (s : Session) (source : String) : s.eval source =
    evalEach (endingOf (readValues source).error) s .unit (readValues source).values :=
  s.evalAhead_eq .unit (TokenStream.ofString source)

theorem eval_of_error_eq_none {source : String} (h : (readValues source).error = none)
    (s : Session) : s.eval source = evalEach .ok s .unit (readValues source).values := by
  rw [eval_eq, h]
  rfl

end MiniLisp.Session
