import MiniLisp.Text.Quoted

/-!
Read errors: why a source text could not be read, and at which of its characters. One of the faults
is not the language's own but the host's, which reports it in words of its own and without a
position.
-/

namespace MiniLisp

inductive ReadFault where
  | unterminatedText
  | unexpectedCharacter (c : Char)
  | unexpectedEnd
  | unmatchedOpen
  | unexpectedClose
  | numberOutOfRange
  /-- A numeral of `digits` digits, which are more than the host converts. -/
  | tooManyDigits (digits limit : Nat)
  | unknownEscape (c : Char)
  /-- An escape by code point whose hexadecimal digits name no character. -/
  | invalidCodePoint (digits : List Char)
deriving DecidableEq

/-- A fault, with the position it is blamed on: a count of characters from the start. -/
structure ReadError where
  fault : ReadFault
  position : Nat
deriving DecidableEq

def ReadFault.message : ReadFault → String
  | .unterminatedText => "Unterminated string literal"
  | .unexpectedCharacter c => "Unexpected character " ++ Text.quoted c.toString
  | .unexpectedEnd => "Unexpected end of input"
  | .unmatchedOpen => "Unmatched '('"
  | .unexpectedClose => "Unexpected ')'"
  | .numberOutOfRange => "Integer literal out of range"
  | .tooManyDigits digits limit =>
    s!"Exceeds the limit ({limit} digits) for integer string conversion: " ++
      s!"value has {digits} digits; use sys.set_int_max_str_digits() to increase the limit"
  | .unknownEscape c => "Unknown escape sequence \\" ++ c.toString
  | .invalidCodePoint digits =>
    "Invalid unicode escape \\u\x7b" ++ String.ofList digits ++ "\x7d"

/-- Whether a fault is raised by the host, not by the language. -/
def ReadFault.isForeign : ReadFault → Bool
  | .tooManyDigits _ _ => true
  | _ => false

/-- The sentence that reports what went wrong at a position. -/
def ReadError.describe (what : String) (position : Nat) : String :=
  s!"Parse error at position {position}: {what}"

def ReadError.message (e : ReadError) : String :=
  if e.fault.isForeign then e.fault.message else describe e.fault.message e.position

/-! ## Results

Whether a result is a value or an error can be decided. Mapping its value does not change which it
is. -/

section

variable {ε α β : Type} (result : Except ε α)

instance decidableExistsOk : Decidable (∃ a, result = .ok a) :=
  match result with
  | .ok a => .isTrue ⟨a, rfl⟩
  | .error _ => .isFalse nofun

instance decidableExistsError : Decidable (∃ e, result = .error e) :=
  match result with
  | .ok _ => .isFalse nofun
  | .error e => .isTrue ⟨e, rfl⟩

variable {result} {f : α → β}

theorem map_eq_ok_iff {b : β} : result.map f = .ok b ↔ ∃ a, result = .ok a ∧ f a = b := by
  cases result <;> simp [Except.map]

theorem map_eq_error_iff {e : ε} : result.map f = .error e ↔ result = .error e := by
  cases result <;> simp [Except.map]

end

end MiniLisp
