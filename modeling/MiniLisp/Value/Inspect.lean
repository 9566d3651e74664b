import MiniLisp.Text.Quoted
import MiniLisp.Value

/-!
Inspection: a value as the constructors that build it, so that a text cannot be taken for a symbol
nor a list for a call.
-/

namespace MiniLisp.Value

mutual

def inspect : Value → String
  | .unit => "Unit"
  | .boolean b => if b then "True" else "False"
  | .number n => n.repr
  | .text s => Text.quoted s
  | .symbol name => "Symbol(" ++ Text.quoted name.text ++ ")"
  | .quoted inner => "Quoted(" ++ inspect inner ++ ")"
  | .sequence items => "[" ++ ", ".intercalate (inspectEach items) ++ "]"
  | .function parameters body applied =>
    "Function([" ++ ", ".intercalate (parameters.map Text.quoted) ++ "], " ++ inspect body ++
      ", [" ++ ", ".intercalate (inspectEach applied) ++ "])"

def inspectEach : List Value → List String
  | [] => []
  | v :: vs => inspect v :: inspectEach vs

end

end MiniLisp.Value
