import MiniLisp.Value

/-!
Agreement: when two values count as equal. Booleans count as the numbers 1 and 0, at any depth; all
else must have the same constructors and parts, so a symbol never agrees with a text.
-/

namespace MiniLisp.Value

/-- The number that a number or a boolean counts as. -/
def asNumber? : Value → Option Int
  | .number n => some n
  | .boolean b => some (if b then 1 else 0)
  | _ => none

mutual

/-- Whether two values count as equal. -/
def agrees : Value → Value → Bool
  | .unit, .unit => true
  | .text s, .text t => s == t
  | .symbol m, .symbol n => m == n
  | .quoted u, .quoted v => agrees u v
  | .sequence us, .sequence vs => agreeEach us vs
  | .function ps u us, .function qs v vs => ps == qs && agrees u v && agreeEach us vs
  | u, v =>
    match asNumber? u, asNumber? v with
    | some m, some n => m == n
    | _, _ => false

/-- Whether two lists have the same length and agree place by place. -/
def agreeEach : List Value → List Value → Bool
  | [], [] => true
  | u :: us, v :: vs => agrees u v && agreeEach us vs
  | _, _ => false

end

end MiniLisp.Value
