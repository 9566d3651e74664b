import MiniLisp.Evaluation
import MiniLisp.Settings
import MiniLisp.TokenStream

/-!
Sessions: evaluation of source text, one input after another. Definitions persist between inputs.
Every expression is evaluated before the next one is read, and commits the scope it leaves if it
completes; one that fails commits nothing, and what comes after it in the same input is neither read
nor evaluated.

How deep an input may be nested is up to the limit of the session alone. The host is assumed to have
the stack that reading, evaluating and rendering it take.
-/

namespace MiniLisp

structure Session where
  scope : Scope := Scope.initial
  limit : Nat := Settings.defaultMaxDepth

namespace Session

def reset (s : Session) : Session := { s with scope := Scope.initial }

variable [Host]

/-- Evaluates the expressions that a stream has ahead, after one with the value `last`. -/
def evalAhead (s : Session) (last : Value) (stream : TokenStream) : Session × Run Value :=
  match h : stream.peek with
  | (.error e, _) => (s, Run.fail (.read e))
  | (.ok none, _) => (s, pure last)
  | (.ok (some _), peeked) =>
    match peeked.parse with
    | ⟨.error e, _, _⟩ => (s, Run.fail (.read e))
    | ⟨.ok e, later, _hlater⟩ =>
      have _hle := TokenStream.size_le_of_peek h
      have _hpos := TokenStream.size_pos_of_peek h
      let step := evaluateWithin s.limit s.scope e
      match step.result with
      | .error error => (s, ⟨step.out, .error error⟩)
      | .ok (scope, v) =>
        let (s, rest) := evalAhead { s with scope := scope } v later
        (s, ⟨step.out ++ rest.out, rest.result⟩)
termination_by stream.size
decreasing_by omega

/-- Evaluates every expression of a source in order, up to the place, if there is one, where the
source cannot be read. The value is that of the last expression, or the unit value if there is
none. -/
def eval (s : Session) (source : String) : Session × Run Value :=
  s.evalAhead .unit (TokenStream.ofString source)

end Session

end MiniLisp
