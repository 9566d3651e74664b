import MiniLisp.Proofs.Evaluation.Natives

/-!
# Arithmetic within the range

A native that computes with numbers gives the exact result if this is in range, and otherwise
reports what is wrong (`Arithmetic.checked`). So does the form that calls for an operation on two
numbers, whatever the scope binds (`Arithmetic.evaluateWithin_form`).
-/

namespace MiniLisp

/-! ## Checked operations -/

namespace Arithmetic

/-- The result of an operation if there is one in range, and otherwise the error that a native
called by the name `context` reports. -/
def checked (op : Arithmetic) (context : String) (a b : Int) : Except Error Int :=
  match op.compute a b with
  | none => .error (.divisionByZero context)
  | some n => if Number.InRange n then .ok n else .error (.overflow context n)

section

variable {op : Arithmetic} {context : String} {a b n : Int}

theorem checked_cases (op : Arithmetic) (context : String) (a b : Int) :
    (op.compute a b = none ∧ op.checked context a b = .error (.divisionByZero context)) ∨
    ∃ n, op.compute a b = some n ∧
      (Number.InRange n ∧ op.checked context a b = .ok n ∨
        ¬ Number.InRange n ∧ op.checked context a b = .error (.overflow context n)) := by
  unfold checked
  cases op.compute a b with
  | none => exact .inl ⟨rfl, rfl⟩
  | some n =>
    by_cases hrange : Number.InRange n
    · exact .inr ⟨n, rfl, .inl ⟨hrange, if_pos hrange⟩⟩
    · exact .inr ⟨n, rfl, .inr ⟨hrange, if_neg hrange⟩⟩

theorem checked_eq_ok_iff :
    op.checked context a b = .ok n ↔ op.compute a b = some n ∧ Number.InRange n := by
  obtain ⟨hresult, h⟩ | ⟨m, hresult, ⟨hrange, h⟩ | ⟨hrange, h⟩⟩ := op.checked_cases context a b
  · simp [h, hresult]
  · simp only [h, hresult, Except.ok.injEq, Option.some.injEq]
    exact ⟨fun heq => ⟨heq, heq ▸ hrange⟩, And.left⟩
  · simp only [h, hresult, reduceCtorEq, Option.some.injEq, false_iff, not_and]
    exact fun heq => heq ▸ hrange

theorem checked_eq_overflow_iff :
    op.checked context a b = .error (.overflow context n) ↔
      op.compute a b = some n ∧ ¬ Number.InRange n := by
  obtain ⟨hresult, h⟩ | ⟨m, hresult, ⟨hrange, h⟩ | ⟨hrange, h⟩⟩ := op.checked_cases context a b
  · simp [h, hresult]
  · simp only [h, hresult, reduceCtorEq, Option.some.injEq, false_iff, not_and, not_not]
    exact fun heq => heq ▸ hrange
  · simp only [h, hresult, Except.error.injEq, Error.overflow.injEq, true_and, Option.some.injEq]
    exact ⟨fun heq => ⟨heq, heq ▸ hrange⟩, And.left⟩

theorem checked_eq_divisionByZero_iff :
    op.checked context a b = .error (.divisionByZero context) ↔ op.compute a b = none := by
  obtain ⟨hresult, h⟩ | ⟨m, hresult, ⟨-, h⟩ | ⟨-, h⟩⟩ := op.checked_cases context a b <;>
    simp [h, hresult]

end

end Arithmetic

/-- The run that ends in a number, with the scope as it was, or in an error. -/
def Run.ofNumber (scope : Scope) (result : Except Error Int) : Run (Scope × Value) :=
  ofExcept (result.map fun n => (scope, .number n))

section

variable {scope : Scope} {result : Except Error Int}

theorem Run.ofNumber_eq_pure_iff {n : Int} :
    ofNumber scope result = pure (scope, .number n) ↔ result = .ok n := by
  cases result <;> simp [ofNumber, ofExcept, Except.map]

theorem Run.ofNumber_eq_fail_iff {error : Error} :
    ofNumber scope result = fail error ↔ result = .error error := by
  cases result <;> simp [ofNumber, ofExcept, fail, Except.map]

theorem Run.exists_of_ofNumber_result {after : Scope} {v : Value}
    (h : (ofNumber scope result).result = .ok (after, v)) : ∃ n, result = .ok n := by
  cases result with
  | error => cases h
  | ok n => exact ⟨n, rfl⟩

theorem relabelled_ofNumber (c : Name) :
    relabelled c (Run.ofNumber scope result) = Run.ofNumber (scope.relabel c) result := by
  cases result <;> rfl

end

theorem Native.call_arithmetic (op : Arithmetic) (ev : Evaluator) (scope : Scope) (name : Name)
    (a b : Int) :
    (Native.arithmetic op).call ev scope name [.number a, .number b] =
      Run.ofNumber scope (op.checked scope.label.text a b) := by
  have hargument (position : Nat) (k : Int) :
      Run.ofExcept (coerceArgument Value.toNumber scope.label position (.number k)) = pure k := rfl
  simp only [call, procedure, hargument, pure_bind]
  unfold Arithmetic.checked
  cases op.compute a b with
  | none => rfl
  | some n =>
    simp only [Value.checkRange]
    split <;> rfl

/-! ## Forms -/

namespace Arithmetic

/-- What stands for an operation in source text; some operations have a second name. -/
def symbol : Arithmetic → String
  | .add => "+"
  | .sub => "-"
  | .mul => "*"
  | .div => "/"
  | .mod => "%"
  | .max => "max"
  | .min => "min"

theorem symbol_ne_empty (op : Arithmetic) : op.symbol ≠ "" := by
  cases op <;> decide

def name (op : Arithmetic) : Name := ⟨op.symbol, op.symbol_ne_empty⟩

theorem ofName?_name (op : Arithmetic) : Native.ofName? op.name.text = some (.arithmetic op) := by
  cases op <;> rfl

/-- The form that calls for an operation on what two expressions give. -/
def form (op : Arithmetic) (e f : Value) : Value := callForm op.name [e, f]

theorem evaluateWithin_form {op : Arithmetic} {a b : Int} {scope : Scope} {limit : Nat}
    (hlimit : 1 ≤ limit) :
    evaluateWithin limit scope (op.form (.number a) (.number b)) =
      Run.ofNumber scope (op.checked op.symbol a b) := by
  obtain ⟨budget, rfl⟩ : ∃ budget, limit = budget + 1 := ⟨limit - 1, by omega⟩
  have hrow : evaluateEach (evaluate budget) (scope.relabel op.name) [.number a, .number b] =
      pure (scope.relabel op.name, [.number a, .number b]) := by
    simp only [evaluateEach, evaluate, pure_bind]
  have hrun : evaluate (budget + 1) scope (op.form (.number a) (.number b)) =
      Run.ofNumber scope (op.checked op.symbol a b) := by
    unfold form
    rw [Native.evaluate_callForm op.ofName?_name hrow, Native.call_arithmetic,
      relabelled_ofNumber]
    rfl
  unfold evaluateWithin
  -- No error of an operation is about the depth.
  obtain ⟨-, h⟩ | ⟨n, -, ⟨-, h⟩ | ⟨-, h⟩⟩ := op.checked_cases op.symbol a b
  · rw [hrun, h]
    rfl
  · rw [hrun, h]
    rfl
  · rw [hrun, h]
    rfl

end Arithmetic

end MiniLisp
