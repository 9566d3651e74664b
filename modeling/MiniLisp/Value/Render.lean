import MiniLisp.Text.Literal
import MiniLisp.Value

/-!
Rendering: a value as source text. What the reader can make is rendered so that it reads back;
functions and the unit value have a form for the eye only. The host is assumed to have the stack to
render a value nested to any depth.
-/

namespace MiniLisp.Value

mutual

def render : Value → String
  | .unit => "void"
  | .boolean b => if b then "true" else "false"
  | .number n => n.repr
  | .text s => Text.literal s
  | .symbol name => name.text
  | .quoted inner => "'" ++ render inner
  | .sequence items => "(" ++ " ".intercalate (renderEach items) ++ ")"
  | .function parameters body applied =>
    let received := List.zipWith (fun name value => name ++ "=" ++ value) parameters
      (renderEach applied)
    "(fn! " ++ render body ++ " [" ++ ", ".intercalate received ++ "])"

def renderEach : List Value → List String
  | [] => []
  | v :: vs => render v :: renderEach vs

end

theorem renderEach_eq_map (vs : List Value) : renderEach vs = vs.map render := by
  induction vs with
  | nil => rfl
  | cons v vs ih => simp [renderEach, ih]

end MiniLisp.Value
