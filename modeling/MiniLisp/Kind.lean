import MiniLisp.Value

/-!
Kinds: the eight sorts of value, as diagnostics name them.
-/

namespace MiniLisp

inductive Kind where
  | symbol
  | text
  | sequence
  | number
  | boolean
  | function
  | quoted
  | unit
deriving DecidableEq

def Kind.word : Kind → String
  | .symbol => "symbol"
  | .text => "string"
  | .sequence => "list"
  | .number => "number"
  | .boolean => "boolean"
  | .function => "function"
  | .quoted => "quoted"
  | .unit => "void"

def Value.kind : Value → Kind
  | .unit => .unit
  | .boolean _ => .boolean
  | .number _ => .number
  | .text _ => .text
  | .symbol _ => .symbol
  | .quoted _ => .quoted
  | .sequence _ => .sequence
  | .function .. => .function

end MiniLisp
