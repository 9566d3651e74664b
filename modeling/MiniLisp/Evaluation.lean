import MiniLisp.Native
import MiniLisp.SpecialForm

/-!
Evaluation: the value of an expression in a scope, and the scope it leaves.

A list is a form, and its head decides what it means: a special form takes the other items as they
are written; `list`, a native or a bound function takes their values; a head that is a function, or
a list with a function as its value, is applied. Each form inside another spends one of a budget of
levels.

Nothing but the budget ends evaluation for its depth. The host is assumed to have room on its stack
for all the levels of a budget, so that it runs out of stack is no outcome here.
-/

namespace MiniLisp

/-- The head that makes a list of the values of its arguments. -/
def listConstructor : String := "list"

/-- Evaluates a form whose head is a name. -/
def evaluateNamed (ev : Evaluator) (scope : Scope) (name : Name) (tail : List Value) :
    Run (Scope × Value) :=
  match SpecialForm.ofName? name.text with
  | some form => form.run ev scope tail
  | none => do
    let (scope, arguments) ← evaluateEach ev scope tail
    if name.text = listConstructor then
      pure (scope, .sequence arguments)
    else
      match Native.ofName? name.text with
      | some native => native.call ev scope name arguments
      | none =>
        match scope.get? name.text with
        | none => Run.fail (.unbound name.text)
        | some v =>
          match v.toFunction? with
          | some f => f.apply ev scope arguments
          | none => Run.fail (.notCallable (.symbol name) tail)

/-- Evaluates the head of a form that is not a name: a list is evaluated, all else is taken as it
is. -/
def evaluateHead (ev : Evaluator) (scope : Scope) : Value → Run (Scope × Value)
  | .sequence items => ev scope (.sequence items)
  | head => pure (scope, head)

def evaluateForm (ev : Evaluator) (scope : Scope) : List Value → Run (Scope × Value)
  | [] => pure (scope, .sequence [])
  | .symbol name :: tail => evaluateNamed ev (scope.relabel name) name tail
  | head :: tail => do
    let (scope, callee) ← evaluateHead ev scope head
    match callee.toFunction? with
    | some f =>
      let (scope, arguments) ← evaluateEach ev (scope.relabel Scope.anonymousLabel) tail
      f.apply ev scope arguments
    | none => Run.fail (.notCallable head tail)

/-- Evaluates an expression with a budget of levels. The label that a form sets ends with it. -/
def evaluate : Nat → Evaluator
  | _, scope, .symbol name =>
    match scope.get? name.text with
    | some v => pure (scope, v)
    | none => Run.fail (.unbound name.text)
  | _, scope, .quoted v => pure (scope, v)
  | 0, scope, .sequence _ => Run.fail (.depthExceeded scope.label.text 0)
  | budget + 1, scope, .sequence items => do
    let (after, v) ← evaluateForm (evaluate budget) scope items
    pure (after.relabel scope.label, v)
  | _, scope, v => pure (scope, v)

/-- The same error; one about the depth names the limit that was set. -/
def Error.withLimit (limit : Nat) : Error → Error
  | .depthExceeded context _ => .depthExceeded context limit
  | e => e

/-- Evaluates an expression with forms nested at most `limit` deep, for which the host is assumed to
have the stack. The error about the depth is therefore always one about the limit. -/
def evaluateWithin (limit : Nat) (scope : Scope) (e : Value) : Run (Scope × Value) :=
  (evaluate limit scope e).mapError (Error.withLimit limit)

end MiniLisp
