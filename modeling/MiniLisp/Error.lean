import MiniLisp.Kind
import MiniLisp.ReadError
import MiniLisp.Value.Render

/-!
Errors: everything that can go wrong while text is read, values are converted and code is
evaluated. `Error.message` words them; `Error.isEvaluation` tells the ones that evaluation reports,
and `Error.isForeign` the ones that are not errors of the language.
-/

namespace MiniLisp

/-- A value of one kind where another kind is needed. -/
structure Mismatch where
  expected : Kind
  got : Kind
deriving DecidableEq

inductive Error where
  | read (e : ReadError)
  | mismatch (m : Mismatch)
  | emptySymbolName
  | emptyScopeLabel
  /-- An argument, counted from 0, has the wrong kind for its place. -/
  | argumentKind (context : String) (m : Mismatch) (position : Nat)
  | cannotConcat (left right : Kind)
  /-- The head of a form cannot be called. The form is `head :: tail`. -/
  | notCallable (head : Value) (tail : List Value)
  | unbound (name : String)
  /-- A special form has the wrong number of arguments. -/
  | argumentCount (context : String) (expected got : Nat)
  /-- A callable gets more arguments than it has parameters. -/
  | tooManyArguments (context : String) (expected got : Nat)
  | depthExceeded (context : String) (limit : Nat)
  | divisionByZero (context : String)
  | emptySequence (context : String)
  | overflow (context : String) (value : Int)

namespace Error

/-- What the author of a form that cannot be called may have meant: the same form as data. -/
def suggestion (head : Value) (tail : List Value) : Value := .quoted (.sequence (head :: tail))

def message : Error → String
  | .read e => e.message
  | .mismatch m => s!"Expected `{m.expected.word}`, got `{m.got.word}`"
  | .emptySymbolName => "Symbol name must be a non-empty string"
  | .emptyScopeLabel => "Scope context must be a non-empty string"
  | .argumentKind context m position =>
    s!"Invalid argument type for `{context}` at position `{position}`, " ++
      s!"expected `{m.expected.word}`, got `{m.got.word}`"
  | .cannotConcat left right =>
    s!"Invalid argument types, cannot concat `{left.word}` and `{right.word}`"
  | .notCallable head tail =>
    s!"Invalid function call, got `{head.render}` of type `{head.kind.word}`. \n" ++
      s!"Is this supposed to be a list? If so, use `{(suggestion head tail).render}`"
  | .unbound name => s!"Unknown identifier `{name}`."
  | .argumentCount context expected got => s!"`{context}` expects {expected} arguments, got {got}"
  | .tooManyArguments context expected got =>
    s!"Too many arguments for `{context}`: expected at most {expected}, got {got}"
  | .depthExceeded context limit => s!"Recursion limit of {limit} exceeded in `{context}`"
  | .divisionByZero context => s!"Division by zero in `{context}`"
  | .emptySequence context => s!"`{context}` of an empty list"
  | .overflow context value => s!"Integer overflow in `{context}`: {value} is out of range"

/-- Whether an error is one of those that evaluation reports. -/
def isEvaluation : Error → Bool
  | .read _ | .mismatch _ | .emptySymbolName | .emptyScopeLabel => false
  | _ => true

/-- Whether an error is none of the language's own, so that nothing that answers those knows it. -/
def isForeign : Error → Bool
  | .read e => e.fault.isForeign
  | .emptySymbolName | .emptyScopeLabel => true
  | _ => false

end Error

end MiniLisp
