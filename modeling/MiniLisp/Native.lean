import MiniLisp.Application
import MiniLisp.Arithmetic

/-!
Natives: the functions every program starts with. Some have two names.

A native takes a fixed number of values. Called with fewer it gives a function that calls it by
name, so a native in want of arguments is a function like any other.
-/

namespace MiniLisp

inductive Native where
  | eval
  | print
  | debug
  | toText
  | printScope
  | clearScope
  | fold
  | map
  | concat
  | push
  | head
  | tail
  | length
  | arithmetic (op : Arithmetic)
  | comparison (op : Comparison)
  | and
  | or
  | not
deriving DecidableEq

/-- What is done with the values a native is called with, by their number. -/
inductive Procedure where
  | nullary (run : Run (Scope × Value))
  | unary (run : Value → Run (Scope × Value))
  | binary (run : Value → Value → Run (Scope × Value))
  | ternary (run : Value → Value → Value → Run (Scope × Value))

namespace Native

def table : List (String × Native) := [
  ("eval", .eval), ("print", .print), ("debug", .debug), ("to_string", .toText),
  ("print_scope", .printScope), ("clear_scope", .clearScope),
  ("fold", .fold), ("map", .map), ("concat", .concat), ("push", .push),
  ("head", .head), ("tail", .tail), ("len", .length),
  ("+", .arithmetic .add), ("-", .arithmetic .sub), ("*", .arithmetic .mul),
  ("/", .arithmetic .div), ("%", .arithmetic .mod),
  ("add", .arithmetic .add), ("sub", .arithmetic .sub), ("mul", .arithmetic .mul),
  ("div", .arithmetic .div), ("mod", .arithmetic .mod),
  ("max", .arithmetic .max), ("min", .arithmetic .min),
  ("<", .comparison .less), (">", .comparison .greater), ("<=", .comparison .atMost),
  (">=", .comparison .atLeast), ("=", .comparison .equal),
  ("lt", .comparison .less), ("gt", .comparison .greater), ("ltq", .comparison .atMost),
  ("gtq", .comparison .atLeast), ("eq", .comparison .equal),
  ("and", .and), ("or", .or), ("not", .not)]

def ofName? (name : String) : Option Native := table.lookup name

def arity : Native → Nat
  | .printScope | .clearScope => 0
  | .eval | .print | .debug | .toText | .head | .tail | .length | .not => 1
  | .map | .concat | .push | .arithmetic _ | .comparison _ | .and | .or => 2
  | .fold => 3

/-! ## Currying -/

/-- The parameters of natives that wait for arguments, as many as the longest needs. -/
def parameterNames : List Name :=
  [{ text := "a0" }, { text := "a1" }, { text := "a2" }]

/-- The function that waits for the rest of a native's arguments. Its body calls the native, by
the name it was called by, on all parameters. -/
def curried (native : Native) (name : Name) (applied : List Value) : Function :=
  let parameters := parameterNames.take native.arity
  { parameters := parameters.map Name.text
    body := .sequence (.symbol name :: parameters.map Value.symbol)
    applied := applied }

/-! ## What each native does -/

section

variable (ev : Evaluator) (scope : Scope)

/-- The kinds that cannot be joined to anything. -/
def refusesConcat : Kind → Bool
  | .function | .quoted | .unit => true
  | _ => false

/-- Two sequences joined, an item put after a sequence or before one, or two items paired. -/
def joined : Value → Value → List Value
  | .sequence items, .sequence items' => items ++ items'
  | .sequence items, item => items ++ [item]
  | item, .sequence items => item :: items
  | item, item' => [item, item']

/-- A value as the list it contributes to a concatenation. -/
def concatPart : Value → List Value
  | .sequence items => items
  | v => [v]

-- What each side contributes does not depend on the other.
theorem joined_eq (u v : Value) : joined u v = concatPart u ++ concatPart v := by
  unfold joined
  split <;> simp [concatPart, *]

/-- Combines the items with an accumulator, from left to right, by calls of `operation`. The values
go into the calls quoted, so that they are not evaluated again. -/
def foldItems (operation : Value) : Scope → Value → List Value → Run (Scope × Value)
  | scope, accumulator, [] => pure (scope, accumulator)
  | scope, accumulator, item :: items => do
    let (scope, accumulator) ← ev scope (.sequence [operation, .quoted accumulator, .quoted item])
    foldItems operation scope accumulator items

/-- The first item and the others of a list that must not be empty. -/
def splitFirst (v : Value) : Except Error (Value × List Value) := do
  match ← coerceArgument Value.toSequence scope.label 0 v with
  | [] => .error (.emptySequence scope.label.text)
  | item :: items => .ok (item, items)

def procedure : Native → Procedure
  | .eval => .unary fun v => ev scope v
  | .print => .unary fun v => do
    let line ← Run.ofExcept (coerceArgument Value.toText scope.label 0 v)
    Run.print line
    pure (scope, .unit)
  | .debug => .unary fun v => do
    Run.print v.render
    pure (scope, v)
  | .toText => .unary fun v => do
    let n ← Run.ofExcept (coerceArgument Value.toNumber scope.label 0 v)
    pure (scope, .text n.repr)
  | .printScope => .nullary do
    Run.print scope.render
    pure (scope, .unit)
  | .clearScope => .nullary (pure (Scope.initial, .unit))
  | .fold => .ternary fun operation accumulator v => do
    let items ← Run.ofExcept (coerceArgument Value.toSequence scope.label 2 v)
    foldItems ev operation scope accumulator items
  | .map => .binary fun operation v => do
    let items ← Run.ofExcept (coerceArgument Value.toSequence scope.label 1 v)
    let (scope, results) ←
      evaluateEach ev scope (items.map fun item => .sequence [operation, .quoted item])
    pure (scope, .sequence results)
  | .concat => .binary fun left right =>
    if refusesConcat left.kind || refusesConcat right.kind then
      Run.fail (.cannotConcat left.kind right.kind)
    else pure (scope, .sequence (joined left right))
  | .push => .binary fun v item => do
    let items ← Run.ofExcept (coerceArgument Value.toSequence scope.label 0 v)
    pure (scope, .sequence (items ++ [item]))
  | .head => .unary fun v => do
    let (first, _) ← Run.ofExcept (splitFirst scope v)
    pure (scope, first)
  | .tail => .unary fun v => do
    let (_, others) ← Run.ofExcept (splitFirst scope v)
    pure (scope, .sequence others)
  | .length => .unary fun v => do
    let items ← Run.ofExcept (coerceArgument Value.toSequence scope.label 0 v)
    let count ← Run.ofExcept (Value.checkRange scope.label.text (.number items.length))
    pure (scope, count)
  | .arithmetic op => .binary fun left right => do
    let a ← Run.ofExcept (coerceArgument Value.toNumber scope.label 0 left)
    let b ← Run.ofExcept (coerceArgument Value.toNumber scope.label 1 right)
    match op.compute a b with
    | none => Run.fail (.divisionByZero scope.label.text)
    | some n =>
      let v ← Run.ofExcept (Value.checkRange scope.label.text (.number n))
      pure (scope, v)
  | .comparison op => .binary fun left right => do
    let a ← Run.ofExcept (coerceArgument Value.toNumber scope.label 0 left)
    let b ← Run.ofExcept (coerceArgument Value.toNumber scope.label 1 right)
    pure (scope, .boolean (op.holds a b))
  | .and => .binary fun left right => do
    let a ← Run.ofExcept (coerceArgument Value.toBoolean scope.label 0 left)
    let b ← Run.ofExcept (coerceArgument Value.toBoolean scope.label 1 right)
    pure (scope, .boolean (a && b))
  | .or => .binary fun left right => do
    let a ← Run.ofExcept (coerceArgument Value.toBoolean scope.label 0 left)
    let b ← Run.ofExcept (coerceArgument Value.toBoolean scope.label 1 right)
    pure (scope, .boolean (a || b))
  | .not => .unary fun v => do
    let b ← Run.ofExcept (coerceArgument Value.toBoolean scope.label 0 v)
    pure (scope, .boolean !b)

def call (native : Native) (name : Name) (arguments : List Value) : Run (Scope × Value) :=
  match native.procedure ev scope, arguments with
  | .nullary run, [] => run
  | .unary run, [a] => run a
  | .binary run, [a, b] => run a b
  | .ternary run, [a, b, c] => run a b c
  | _, _ =>
    if arguments.length < native.arity then
      pure (scope, (native.curried name arguments).toValue)
    else Run.fail (.tooManyArguments name.text native.arity arguments.length)

end

end Native

end MiniLisp
