import MiniLisp.Name

/-!
Values. The reader makes them, evaluation takes and returns them: code and data are one type.

Every number the reader makes and every number a native returns lies in the 64-bit signed range
`Number.InRange`; the type itself admits all integers.
-/

namespace MiniLisp

def Number.least : Int := -9223372036854775808

def Number.greatest : Int := 9223372036854775807

/-- The 64-bit signed range. -/
def Number.InRange (n : Int) : Prop := Number.least ≤ n ∧ n ≤ Number.greatest

instance (n : Int) : Decidable (Number.InRange n) := inferInstanceAs (Decidable (_ ∧ _))

inductive Value where
  /-- The absence of a value, returned by binding and printing forms. -/
  | unit
  | boolean (b : Bool)
  | number (n : Int)
  | text (s : String)
  | symbol (name : Name)
  /-- One layer of deferred evaluation. -/
  | quoted (inner : Value)
  | sequence (items : List Value)
  /-- A callable: its parameters, its body, and the arguments it has received so far. -/
  | function (parameters : List String) (body : Value) (applied : List Value)

/-- The parts of a callable value. Closures and curried natives share this form. -/
structure Function where
  parameters : List String
  body : Value
  applied : List Value := []

namespace Function

def toValue (f : Function) : Value := .function f.parameters f.body f.applied

def arity (f : Function) : Nat := f.parameters.length

def receive (f : Function) (arguments : List Value) : Function :=
  { f with applied := f.applied ++ arguments }

@[simp]
theorem arity_receive (f : Function) (arguments : List Value) :
    (f.receive arguments).arity = f.arity := rfl

theorem receive_append (f : Function) (xs ys : List Value) :
    f.receive (xs ++ ys) = (f.receive xs).receive ys := by
  simp [receive]

end Function

namespace Value

def toFunction? : Value → Option Function
  | .function parameters body applied => some ⟨parameters, body, applied⟩
  | _ => none

@[simp]
theorem toFunction?_toValue (f : Function) : f.toValue.toFunction? = some f := rfl

theorem toFunction?_eq_some_iff {v : Value} {f : Function} :
    v.toFunction? = some f ↔ v = f.toValue := by
  cases v <;> cases f <;> simp [toFunction?, Function.toValue]

end Value

end MiniLisp
