import MiniLisp.Application

/-!
Special forms: the forms that take their arguments as they are written. The set is closed.
-/

namespace MiniLisp

inductive SpecialForm where
  /-- Evaluates an expression and binds its value to a name. -/
  | define
  /-- Binds a function to a name. -/
  | defineFunction
  /-- Makes a function of parameters and a body. -/
  | function
  /-- Evaluates one of two expressions, as a boolean tells. -/
  | choose
deriving DecidableEq

namespace SpecialForm

def table : List (String × SpecialForm) := [
  ("def!", .define), ("defn!", .defineFunction), ("fn!", .function), ("if!", .choose)]

def ofName? (name : String) : Option SpecialForm := table.lookup name

def argumentCount : SpecialForm → Nat
  | .define | .function => 2
  | .defineFunction | .choose => 3

/-- The function with the given parameter list and body. Whatever is wrong with the parameter list
is blamed on the argument at `position`. -/
def closure (context : Name) (position : Nat) (parameters body : Value) :
    Except Error Function := do
  let items ← coerceArgument Value.toSequence context position parameters
  let names ← items.mapM (coerceArgument Value.toSymbolName context position)
  return { parameters := names.map Name.text, body := body }

def run (ev : Evaluator) (scope : Scope) : SpecialForm → List Value → Run (Scope × Value)
  | .define, [target, e] => do
    let name ← Run.ofExcept (coerceArgument Value.toSymbolName scope.label 0 target)
    let (scope, v) ← ev scope e
    pure (scope.bind name.text v, .unit)
  | .defineFunction, [target, parameters, body] => do
    let name ← Run.ofExcept (coerceArgument Value.toSymbolName scope.label 0 target)
    let f ← Run.ofExcept (closure scope.label 1 parameters body)
    pure (scope.bind name.text f.toValue, .unit)
  | .function, [parameters, body] => do
    let f ← Run.ofExcept (closure scope.label 0 parameters body)
    pure (scope, f.toValue)
  | .choose, [test, yes, no] => do
    let (after, v) ← ev scope test
    let b ← Run.ofExcept (coerceArgument Value.toBoolean scope.label 0 v)
    if b then ev after yes else ev after no
  | form, arguments =>
    Run.fail (.argumentCount scope.label.text form.argumentCount arguments.length)

end SpecialForm

end MiniLisp
