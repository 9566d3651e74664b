import MiniLisp.Proofs.Evaluation.Natives

/-!
# The errors of each construct

What a construct finds wrong itself, and what it reports then: a native (`Native.Raises`), a special
form (`SpecialForm.Raises`), a function (`Function.Raises`), and with these a form and any
expression (`FormRaises`, `Raises`). An error that comes out of another evaluation, which the
construct only asks for, is not among them.

Each error is told with what is true when it is raised. So the numbers in a complaint about the
number of arguments differ, the kinds in one about an argument do too, and what cannot be called is
the form as it was written.
-/

namespace MiniLisp

/-! ## Values and kinds -/

/-- Whether a value can stand where a kind is needed: one of that kind can, and a symbol can stand
for text. -/
def Value.Fits (v : Value) (k : Kind) : Prop := v.kind = k ∨ v.kind = .symbol ∧ k = .text

/-- A coercion that refuses only values that do not fit a kind, and says so. -/
def CoercesTo {α : Type} (coerce : Value → Except Mismatch α) (k : Kind) : Prop :=
  ∀ v m, coerce v = .error m → ¬ v.Fits k ∧ m = ⟨k, v.kind⟩

section

open Value

theorem toNumber_coercesTo : CoercesTo toNumber .number := by
  intro v m h
  cases v <;> cases h <;> exact ⟨by simp [Fits, kind], rfl⟩

theorem toBoolean_coercesTo : CoercesTo toBoolean .boolean := by
  intro v m h
  cases v <;> cases h <;> exact ⟨by simp [Fits, kind], rfl⟩

theorem toText_coercesTo : CoercesTo toText .text := by
  intro v m h
  cases v <;> cases h <;> exact ⟨by simp [Fits, kind], rfl⟩

theorem toSequence_coercesTo : CoercesTo toSequence .sequence := by
  intro v m h
  cases v <;> cases h <;> exact ⟨by simp [Fits, kind], rfl⟩

theorem toSymbolName_coercesTo : CoercesTo toSymbolName .symbol := by
  intro v m h
  cases v <;> cases h <;> exact ⟨by simp [Fits, kind], rfl⟩

end

/-! ## Natives -/

theorem Arithmetic.compute_eq_none_iff {op : Arithmetic} {a b : Int} :
    op.compute a b = none ↔ (op = .div ∨ op = .mod) ∧ b = 0 := by
  cases op <;> simp [compute]

namespace Native

/-- The kind that a native needs in a place of its arguments, counted from 0; in the other places it
takes every value. -/
def needs? : Native → Nat → Option Kind
  | .print, 0 => some .text
  | .toText, 0 => some .number
  | .fold, 2 | .map, 1 | .push, 0 | .head, 0 | .tail, 0 | .length, 0 => some .sequence
  | .arithmetic _, 0 | .arithmetic _, 1 | .comparison _, 0 | .comparison _, 1 => some .number
  | .and, 0 | .and, 1 | .or, 0 | .or, 1 | .not, 0 => some .boolean
  | _, _ => none

/-- The number that a native computes, before any limit on its size. -/
def exactResult? : Native → List Value → Option Int
  | .arithmetic op, [.number a, .number b] => op.compute a b
  | .length, [.sequence items] => some items.length
  | _, _ => none

/-- What a native reports of the values it is called with. -/
inductive Raises (context : String) : Native → List Value → Error → Prop
  | kind {native : Native} {vs : List Value} {position : Nat} {v : Value} {k : Kind}
      (hneeds : native.needs? position = some k) (hv : vs[position]? = some v)
      (hfits : ¬ v.Fits k) : Raises context native vs (.argumentKind context ⟨k, v.kind⟩ position)
  | concat {left right : Value} (h : refusesConcat left.kind ∨ refusesConcat right.kind) :
      Raises context .concat [left, right] (.cannotConcat left.kind right.kind)
  | division {op : Arithmetic} {a : Int} (hop : op = .div ∨ op = .mod) :
      Raises context (.arithmetic op) [.number a, .number 0] (.divisionByZero context)
  | empty {native : Native} (hnative : native = .head ∨ native = .tail) :
      Raises context native [.sequence []] (.emptySequence context)
  | overflow {native : Native} {vs : List Value} {n : Int}
      (hresult : native.exactResult? vs = some n) (hrange : ¬ Number.InRange n) :
      Raises context native vs (.overflow context n)
  | many {native : Native} {vs : List Value} (h : native.arity < vs.length) :
      Raises context native vs (.tooManyArguments context native.arity vs.length)

end Native

/-! ## Special forms -/

namespace SpecialForm

/-- What is wrong with a parameter list: it is no list, or one of its items is no name. -/
inductive BadParameters : Value → Mismatch → Prop
  | list {v : Value} (h : ¬ v.Fits .sequence) : BadParameters v ⟨.sequence, v.kind⟩
  | item {items : List Value} {item : Value} (hitem : item ∈ items) (h : ¬ item.Fits .symbol) :
      BadParameters (.sequence items) ⟨.symbol, item.kind⟩

/-- What a special form reports of its arguments. -/
inductive Raises (ev : Evaluator) (s : Scope) : SpecialForm → List Value → Error → Prop
  | count {form : SpecialForm} {arguments : List Value}
      (h : arguments.length ≠ form.argumentCount) : Raises ev s form arguments
        (.argumentCount s.label.text form.argumentCount arguments.length)
  | name {form : SpecialForm} {target : Value} {others : List Value}
      (hform : form = .define ∨ form = .defineFunction)
      (hcount : (target :: others).length = form.argumentCount) (h : ¬ target.Fits .symbol) :
      Raises ev s form (target :: others)
        (.argumentKind s.label.text ⟨.symbol, target.kind⟩ 0)
  | parameters {parameters body : Value} {m : Mismatch} (h : BadParameters parameters m) :
      Raises ev s .function [parameters, body] (.argumentKind s.label.text m 0)
  | namedParameters {target parameters body : Value} {m : Mismatch}
      (h : BadParameters parameters m) :
      Raises ev s .defineFunction [target, parameters, body] (.argumentKind s.label.text m 1)
  | test {test yes no v : Value} {t : Scope} (hv : (ev s test).result = .ok (t, v))
      (h : ¬ v.Fits .boolean) :
      Raises ev s .choose [test, yes, no] (.argumentKind s.label.text ⟨.boolean, v.kind⟩ 0)

end SpecialForm

/-! ## Functions, forms and expressions -/

/-- What a function reports of the arguments it is applied to. -/
inductive Function.Raises (context : String) (f : Function) (arguments : List Value) : Error → Prop
  | many (h : f.arity < f.applied.length + arguments.length) : Raises context f arguments
      (.tooManyArguments context f.arity (f.applied.length + arguments.length))

/-- What a form reports: its head finds the arguments wrong, or it cannot be called. -/
inductive FormRaises (ev : Evaluator) (s : Scope) : List Value → Error → Prop
  | special {name : Name} {form : SpecialForm} {tail : List Value} {error : Error}
      (hform : SpecialForm.ofName? name.text = some form)
      (h : form.Raises ev (s.relabel name) tail error) :
      FormRaises ev s (.symbol name :: tail) error
  | native {name : Name} {native : Native} {tail vs : List Value} {after : Scope} {error : Error}
      (hnative : Native.ofName? name.text = some native)
      (hvs : (evaluateEach ev (s.relabel name) tail).result = .ok (after, vs))
      (h : native.Raises name.text vs error) : FormRaises ev s (.symbol name :: tail) error
  | bound {name : Name} {f : Function} {tail vs : List Value} {after : Scope} {error : Error}
      (hname : name.IsOrdinary)
      (hvs : (evaluateEach ev (s.relabel name) tail).result = .ok (after, vs))
      (hbound : after.get? name.text = some f.toValue) (h : f.Raises name.text vs error) :
      FormRaises ev s (.symbol name :: tail) error
  | computed {head : Value} {f : Function} {tail vs : List Value} {between after : Scope}
      {error : Error} (hhead : ∀ name, head ≠ .symbol name)
      (hcallee : (evaluateHead ev s head).result = .ok (between, f.toValue))
      (hvs : (evaluateEach ev (between.relabel Scope.anonymousLabel) tail).result =
        .ok (after, vs))
      (h : f.Raises Scope.anonymousLabel.text vs error) : FormRaises ev s (head :: tail) error
  | unbound {name : Name} {tail vs : List Value} {after : Scope} (hname : name.IsOrdinary)
      (hvs : (evaluateEach ev (s.relabel name) tail).result = .ok (after, vs))
      (hunbound : after.get? name.text = none) :
      FormRaises ev s (.symbol name :: tail) (.unbound name.text)
  | boundToOther {name : Name} {tail vs : List Value} {after : Scope} {v : Value}
      (hname : name.IsOrdinary)
      (hvs : (evaluateEach ev (s.relabel name) tail).result = .ok (after, vs))
      (hbound : after.get? name.text = some v) (hv : v.toFunction? = none) :
      FormRaises ev s (.symbol name :: tail) (.notCallable (.symbol name) tail)
  | notCallable {head callee : Value} {tail : List Value} {between : Scope}
      (hhead : ∀ name, head ≠ .symbol name)
      (hcallee : (evaluateHead ev s head).result = .ok (between, callee))
      (hv : callee.toFunction? = none) : FormRaises ev s (head :: tail) (.notCallable head tail)

/-- What evaluating an expression with a budget reports, apart from what it asks for reports. -/
inductive Raises : Nat → Scope → Value → Error → Prop
  | unbound {budget : Nat} {s : Scope} {name : Name} (h : s.get? name.text = none) :
      Raises budget s (.symbol name) (.unbound name.text)
  | depth {s : Scope} {items : List Value} :
      Raises 0 s (.sequence items) (.depthExceeded s.label.text 0)
  | form {budget : Nat} {s : Scope} {items : List Value} {error : Error}
      (h : FormRaises (evaluate budget) s items error) :
      Raises (budget + 1) s (.sequence items) error

/-! ## All errors of evaluation -/

/-- The ten errors of evaluation, each with what its parts satisfy: two kinds that disagree, two
counts that differ, a form to show, a number out of range. -/
inductive EvaluationError : Error → Prop
  | argumentKind {context : String} {m : Mismatch} {position : Nat} (h : m.expected ≠ m.got) :
      EvaluationError (.argumentKind context m position)
  | cannotConcat {left right : Kind}
      (h : Native.refusesConcat left ∨ Native.refusesConcat right) :
      EvaluationError (.cannotConcat left right)
  | notCallable {head : Value} {tail : List Value} : EvaluationError (.notCallable head tail)
  | unbound {name : Name} : EvaluationError (.unbound name.text)
  | argumentCount {context : String} {expected got : Nat} (h : got ≠ expected) :
      EvaluationError (.argumentCount context expected got)
  | tooManyArguments {context : String} {expected got : Nat} (h : expected < got) :
      EvaluationError (.tooManyArguments context expected got)
  | depthExceeded {context : String} {limit : Nat} : EvaluationError (.depthExceeded context limit)
  | divisionByZero {context : String} : EvaluationError (.divisionByZero context)
  | emptySequence {context : String} : EvaluationError (.emptySequence context)
  | overflow {context : String} {n : Int} (h : ¬ Number.InRange n) :
      EvaluationError (.overflow context n)

theorem EvaluationError.isEvaluation {error : Error} (h : EvaluationError error) :
    error.isEvaluation := by
  cases h <;> rfl

theorem Value.Fits.ne_kind {v : Value} {k : Kind} (h : ¬ v.Fits k) : k ≠ v.kind :=
  fun heq => h (.inl heq.symm)

theorem Native.Raises.evaluationError {context : String} {native : Native} {vs : List Value}
    {error : Error} (h : native.Raises context vs error) : EvaluationError error := by
  cases h with
  | kind _ _ hfits => exact .argumentKind (Value.Fits.ne_kind hfits)
  | concat h => exact .cannotConcat h
  | division => exact .divisionByZero
  | empty => exact .emptySequence
  | overflow _ hrange => exact .overflow hrange
  | many h => exact .tooManyArguments h

theorem SpecialForm.BadParameters.expected_ne_got {parameters : Value} {m : Mismatch}
    (h : BadParameters parameters m) : m.expected ≠ m.got := by
  cases h with
  | list h => exact Value.Fits.ne_kind h
  | item _ h => exact Value.Fits.ne_kind h

theorem SpecialForm.Raises.evaluationError {ev : Evaluator} {s : Scope} {form : SpecialForm}
    {arguments : List Value} {error : Error} (h : form.Raises ev s arguments error) :
    EvaluationError error := by
  cases h with
  | count h => exact .argumentCount h
  | name _ _ h => exact .argumentKind (Value.Fits.ne_kind h)
  | parameters h => exact .argumentKind h.expected_ne_got
  | namedParameters h => exact .argumentKind h.expected_ne_got
  | test _ h => exact .argumentKind (Value.Fits.ne_kind h)

theorem Function.Raises.evaluationError {context : String} {f : Function} {arguments : List Value}
    {error : Error} (h : f.Raises context arguments error) : EvaluationError error := by
  cases h with
  | many h => exact .tooManyArguments h

theorem FormRaises.evaluationError {ev : Evaluator} {s : Scope} {items : List Value} {error : Error}
    (h : FormRaises ev s items error) : EvaluationError error := by
  cases h with
  | special _ h => exact h.evaluationError
  | native _ _ h => exact h.evaluationError
  | bound _ _ _ h => exact h.evaluationError
  | computed _ _ _ h => exact h.evaluationError
  | unbound => exact .unbound
  | boundToOther => exact .notCallable
  | notCallable => exact .notCallable

theorem Raises.evaluationError {budget : Nat} {s : Scope} {e : Value} {error : Error}
    (h : Raises budget s e error) : EvaluationError error := by
  cases h with
  | unbound => exact .unbound
  | depth => exact .depthExceeded
  | form h => exact h.evaluationError

end MiniLisp
