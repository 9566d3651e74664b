import MiniLisp.Error

/-!
Coercions: what a value holds, where one kind of value is needed. A symbol is accepted where text
is needed; no other kind stands in for another.
-/

namespace MiniLisp.Value

def toNumber : Value → Except Mismatch Int
  | .number n => .ok n
  | v => .error ⟨.number, v.kind⟩

def toBoolean : Value → Except Mismatch Bool
  | .boolean b => .ok b
  | v => .error ⟨.boolean, v.kind⟩

def toText : Value → Except Mismatch String
  | .text s => .ok s
  | .symbol name => .ok name.text
  | v => .error ⟨.text, v.kind⟩

def toSequence : Value → Except Mismatch (List Value)
  | .sequence items => .ok items
  | v => .error ⟨.sequence, v.kind⟩

def toSymbolName : Value → Except Mismatch Name
  | .symbol name => .ok name
  | v => .error ⟨.symbol, v.kind⟩

def toUnit : Value → Except Mismatch Unit
  | .unit => .ok ()
  | v => .error ⟨.unit, v.kind⟩

def symbolNamed (name : String) : Except Error Value :=
  match Name.ofString? name with
  | some name => .ok (.symbol name)
  | none => .error .emptySymbolName

/-- A computed value, refused if it is a number outside the 64-bit range. -/
def checkRange (context : String) : Value → Except Error Value
  | .number n => if Number.InRange n then .ok (.number n) else .error (.overflow context n)
  | v => .ok v

end MiniLisp.Value
