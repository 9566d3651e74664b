import MiniLisp.Coercion
import MiniLisp.Run
import MiniLisp.Scope

/-!
Application: what calling a function does, for any way of evaluating its body.

Every function is curried. Too few arguments give the function that waits for the rest; enough
evaluate the body with the parameters bound on top of the scope of the call; too many are refused.
-/

namespace MiniLisp

/-- A way of evaluating an expression in a scope: the scope it leaves, and its value. -/
abbrev Evaluator := Scope → Value → Run (Scope × Value)

/-- The scope in which each parameter, in order, is bound to the argument in its place. -/
def Function.callScope (f : Function) (scope : Scope) (arguments : List Value) : Scope :=
  scope.bindAll (f.parameters.zip arguments)

/-- Calls `f` on arguments that follow the ones it has received. What the body binds ends with the
call: the scope of the caller is returned as it was. -/
def Function.apply (f : Function) (ev : Evaluator) (scope : Scope) (arguments : List Value) :
    Run (Scope × Value) :=
  let received := f.applied ++ arguments
  if received.length < f.arity then
    pure (scope, (f.receive arguments).toValue)
  else if f.arity < received.length then
    Run.fail (.tooManyArguments scope.label.text f.arity received.length)
  else do
    let (_, v) ← ev (f.callScope scope received) f.body
    pure (scope, v)

/-- Evaluates expressions from left to right, each in the scope that the one before it left. -/
def evaluateEach (ev : Evaluator) (scope : Scope) : List Value → Run (Scope × List Value)
  | [] => pure (scope, [])
  | e :: es => do
    let (scope, v) ← ev scope e
    let (scope, vs) ← evaluateEach ev scope es
    pure (scope, v :: vs)

/-- What the argument at `position`, counted from 0, holds; an error names the context. -/
def coerceArgument {α : Type} (coerce : Value → Except Mismatch α) (context : Name)
    (position : Nat) (v : Value) : Except Error α :=
  (coerce v).mapError fun m => .argumentKind context.text m position

end MiniLisp
