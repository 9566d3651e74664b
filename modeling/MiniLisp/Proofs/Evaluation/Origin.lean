import MiniLisp.Proofs.Evaluation.Failure

/-!
# Where an error comes from

Evaluating a form asks for other evaluations: of its head, of its arguments, of what a special form
or a native evaluates, of the body of a function (`FormAsks`). An error in one of them ends the
form. All other errors are those that the form raises itself (`FormRaises`). So what is known of the
errors that expressions raise is known of all errors (`evaluate_fails`), and an error is followed
from a run down to the one expression that raises it (`evaluate_raises`): one about a number out of
range, to a call of a native whose exact result is that number (`evaluate_overflow`).
-/

namespace MiniLisp

/-! ## What an evaluation asks for -/

/-- A row of expressions comes to `e`, in the scope `t`, once those before it have values. -/
def RowAsks (ev : Evaluator) (s : Scope) (es : List Value) (t : Scope) (e : Value) : Prop :=
  ∃ before after vs, es = before ++ e :: after ∧ (evaluateEach ev s before).result = .ok (t, vs)

/-- A fold comes to the call `e`, in the scope `t`, once the items before it are combined. -/
def FoldAsks (ev : Evaluator) (operation : Value) (s : Scope) (accumulator : Value)
    (items : List Value) (t : Scope) (e : Value) : Prop :=
  ∃ before item after current, items = before ++ item :: after ∧
    (Native.foldItems ev operation s accumulator before).result = .ok (t, current) ∧
    e = .sequence [operation, .quoted current, .quoted item]

inductive Native.Asks (ev : Evaluator) (s : Scope) :
    Native → List Value → Scope → Value → Prop
  | eval {v : Value} : Asks ev s .eval [v] s v
  | fold {operation accumulator e : Value} {items : List Value} {t : Scope}
      (h : FoldAsks ev operation s accumulator items t e) :
      Asks ev s .fold [operation, accumulator, .sequence items] t e
  | map {operation e : Value} {items : List Value} {t : Scope}
      (h : RowAsks ev s (items.map fun item => .sequence [operation, .quoted item]) t e) :
      Asks ev s .map [operation, .sequence items] t e

inductive SpecialForm.Asks (ev : Evaluator) (s : Scope) :
    SpecialForm → List Value → Scope → Value → Prop
  | value {target e : Value} : Asks ev s .define [target, e] s e
  | test {test yes no : Value} : Asks ev s .choose [test, yes, no] s test
  | branch {test yes no : Value} {t : Scope} {b : Bool}
      (h : (ev s test).result = .ok (t, .boolean b)) :
      Asks ev s .choose [test, yes, no] t (if b then yes else no)

/-- A function asks for its body, once it has all its arguments. -/
inductive Function.Asks (f : Function) (s : Scope) (arguments : List Value) : Scope → Value → Prop
  | body (h : f.applied.length + arguments.length = f.arity) :
      Asks f s arguments (f.callScope s (f.applied ++ arguments)) f.body

/-- What evaluating a form asks for. A form whose head is a name goes one of three ways; any other
head is brought to a function first. -/
inductive FormAsks (ev : Evaluator) (s : Scope) : List Value → Scope → Value → Prop
  | special {name : Name} {form : SpecialForm} {tail : List Value} {t : Scope} {e : Value}
      (hform : SpecialForm.ofName? name.text = some form)
      (h : form.Asks ev (s.relabel name) tail t e) : FormAsks ev s (.symbol name :: tail) t e
  | argument {name : Name} {tail : List Value} {t : Scope} {e : Value}
      (hname : SpecialForm.ofName? name.text = none)
      (h : RowAsks ev (s.relabel name) tail t e) : FormAsks ev s (.symbol name :: tail) t e
  | native {name : Name} {native : Native} {tail vs : List Value} {after t : Scope} {e : Value}
      (hnative : Native.ofName? name.text = some native)
      (hvs : (evaluateEach ev (s.relabel name) tail).result = .ok (after, vs))
      (h : native.Asks ev after vs t e) : FormAsks ev s (.symbol name :: tail) t e
  | bound {name : Name} {f : Function} {tail vs : List Value} {after t : Scope} {e : Value}
      (hname : name.IsOrdinary)
      (hvs : (evaluateEach ev (s.relabel name) tail).result = .ok (after, vs))
      (hbound : after.get? name.text = some f.toValue) (h : f.Asks after vs t e) :
      FormAsks ev s (.symbol name :: tail) t e
  | head {items tail : List Value} : FormAsks ev s (.sequence items :: tail) s (.sequence items)
  | argumentOf {head : Value} {f : Function} {tail : List Value} {between t : Scope} {e : Value}
      (hhead : ∀ name, head ≠ .symbol name)
      (hcallee : (evaluateHead ev s head).result = .ok (between, f.toValue))
      (h : RowAsks ev (between.relabel Scope.anonymousLabel) tail t e) :
      FormAsks ev s (head :: tail) t e
  | computed {head : Value} {f : Function} {tail vs : List Value} {between after t : Scope}
      {e : Value} (hhead : ∀ name, head ≠ .symbol name)
      (hcallee : (evaluateHead ev s head).result = .ok (between, f.toValue))
      (hvs : (evaluateEach ev (between.relabel Scope.anonymousLabel) tail).result =
        .ok (after, vs))
      (h : f.Asks after vs t e) : FormAsks ev s (head :: tail) t e

/-- The form calls a native by the name `context`, and the exact result is `n`. -/
inductive FormComputes (ev : Evaluator) (s : Scope) : List Value → String → Int → Prop
  | call {name : Name} {native : Native} {tail vs : List Value} {after : Scope} {n : Int}
      (hnative : Native.ofName? name.text = some native)
      (hvs : (evaluateEach ev (s.relabel name) tail).result = .ok (after, vs))
      (hresult : native.exactResult? vs = some n) :
      FormComputes ev s (.symbol name :: tail) name.text n

/-- With a budget, evaluating `e` in the scope `s` comes in time to evaluating `e'` in the scope
`s'`, with what is then left of the budget. -/
inductive Involves : Nat → Scope → Value → Nat → Scope → Value → Prop
  | self {budget : Nat} {s : Scope} {e : Value} : Involves budget s e budget s e
  | part {budget budget' : Nat} {s t s' : Scope} {items : List Value} {e e' : Value}
      (hasks : FormAsks (evaluate budget) s items t e) (h : Involves budget t e budget' s' e') :
      Involves (budget + 1) s (.sequence items) budget' s' e'

/-! ## Between two lists -/

/-- A procedure whose runs have a property, in view of the values it is for. -/
inductive Procedure.Runs (R : List Value → Run (Scope × Value) → Prop) : Procedure → Prop
  | nullary {x} (h : R [] x) : Runs R (.nullary x)
  | unary {f} (h : ∀ a, R [a] (f a)) : Runs R (.unary f)
  | binary {f} (h : ∀ a b, R [a, b] (f a b)) : Runs R (.binary f)
  | ternary {f} (h : ∀ a b c, R [a, b, c] (f a b c)) : Runs R (.ternary f)

theorem Native.call_runs {R : List Value → Run (Scope × Value) → Prop} {native : Native}
    {ev : Evaluator} {s : Scope} {vs : List Value} (h : (native.procedure ev s).Runs R)
    (hlength : vs.length = native.arity) (name : Name) : R vs (native.call ev s name vs) := by
  rw [← native.arity_procedure ev s] at hlength
  unfold call
  generalize native.procedure ev s = p at h hlength
  cases h with
  | nullary h =>
    obtain rfl := List.eq_nil_of_length_eq_zero hlength
    exact h
  | unary h =>
    obtain ⟨a, rfl⟩ := List.length_eq_one_iff.1 hlength
    exact h a
  | binary h =>
    obtain ⟨a, b, rfl⟩ := List.length_eq_two.1 hlength
    exact h a b
  | ternary h =>
    obtain ⟨a, b, c, rfl⟩ := List.length_eq_three.1 hlength
    exact h a b c

theorem coerceArgument_toNumber_eq_ok {context : Name} {position : Nat} {v : Value} {n : Int}
    (h : coerceArgument Value.toNumber context position v = .ok n) : v = .number n := by
  have hv := coerceArgument_eq_ok h
  cases v <;> cases hv
  rfl

theorem coerceArgument_toBoolean_eq_ok {context : Name} {position : Nat} {v : Value} {b : Bool}
    (h : coerceArgument Value.toBoolean context position v = .ok b) : v = .boolean b := by
  have hv := coerceArgument_eq_ok h
  cases v <;> cases hv
  rfl

/-- An evaluator whose scopes come back under the label they had. -/
def Evaluator.KeepsLabel (ev : Evaluator) : Prop :=
  ∀ s e t v, (ev s e).result = .ok (t, v) → t.label = s.label

theorem evaluateEach_label {ev : Evaluator} (hlabel : ev.KeepsLabel) {s t : Scope}
    {es vs : List Value}
    (h : (evaluateEach ev s es).result = .ok (t, vs)) : t.label = s.label := by
  induction es generalizing s vs with
  | nil =>
    cases h
    rfl
  | cons e es ih =>
    obtain ⟨between, v, ws, hv, hws, -⟩ := evaluateEach_cons_eq_ok h
    exact (ih hws).trans (hlabel s e between v hv)

section

variable {Q : Error → Prop} {ev : Evaluator}

theorem evaluateEach_fails {s : Scope} {es : List Value}
    (hasked : ∀ t e, RowAsks ev s es t e → (ev t e).FailsOnlyWith Q) :
    (evaluateEach ev s es).FailsOnlyWith Q := by
  -- What the rest of the row asks for, the row asks for once its first expression has a value.
  induction es generalizing s with
  | nil => exact .pure _
  | cons e es ih =>
    unfold evaluateEach
    refine .bind (hasked s e ⟨[], es, [], rfl, rfl⟩) ?_
    rintro ⟨between, v⟩ hv
    refine .bind (ih ?_) fun _ _ => .pure _
    rintro t e' ⟨before, after, vs, rfl, hbefore⟩
    refine hasked t e' ⟨e :: before, after, v :: vs, rfl, ?_⟩
    unfold evaluateEach
    exact Run.result_bind_eq_ok.2 ⟨_, hv, Run.result_bind_eq_ok.2 ⟨_, hbefore, rfl⟩⟩

theorem foldItems_fails {operation : Value} {s : Scope} {accumulator : Value} {items : List Value}
    (hasked : ∀ t e, FoldAsks ev operation s accumulator items t e → (ev t e).FailsOnlyWith Q) :
    (Native.foldItems ev operation s accumulator items).FailsOnlyWith Q := by
  induction items generalizing s accumulator with
  | nil => exact .pure _
  | cons item items ih =>
    unfold Native.foldItems
    refine .bind (hasked s _ ⟨[], item, items, accumulator, rfl, rfl, rfl⟩) ?_
    rintro ⟨between, v⟩ hv
    refine ih ?_
    rintro t e' ⟨before, item', after, current, rfl, hbefore, rfl⟩
    refine hasked t _ ⟨item :: before, item', after, current, rfl, ?_, rfl⟩
    unfold Native.foldItems
    exact Run.result_bind_eq_ok.2 ⟨_, hv, hbefore⟩

-- A native refuses an argument only for its kind.
theorem Native.argument_fails {native : Native} {s : Scope} {vs : List Value}
    (hown : ∀ error, native.Raises s.label.text vs error → Q error) {α : Type}
    {coerce : Value → Except Mismatch α} {k : Kind} (hcoerce : CoercesTo coerce k) {position : Nat}
    (hneeds : native.needs? position = some k) {v : Value} (hv : vs[position]? = some v) :
    (Run.ofExcept (coerceArgument coerce s.label position v)).FailsOnlyWith Q :=
  coerceArgument_fails hcoerce fun hfits => hown _ (.kind hneeds hv hfits)

theorem Native.procedure_fails (native : Native) (s : Scope) :
    (native.procedure ev s).Runs fun vs x =>
      (∀ t e, native.Asks ev s vs t e → (ev t e).FailsOnlyWith Q) →
      (∀ error, native.Raises s.label.text vs error → Q error) → x.FailsOnlyWith Q := by
  cases native with
  | eval => exact .unary fun v hasked _ => hasked s v .eval
  | print =>
    refine .unary fun v _ hown => .bind (argument_fails hown toText_coercesTo rfl rfl) ?_
    exact fun line _ => .bind (.print line) fun _ _ => .pure _
  | debug => exact .unary fun v _ _ => .bind (.print _) fun _ _ => .pure _
  | toText =>
    refine .unary fun v _ hown => .bind (argument_fails hown toNumber_coercesTo rfl rfl) ?_
    exact fun n _ => .pure _
  | printScope => exact .nullary fun _ _ => .bind (.print _) fun _ _ => .pure _
  | clearScope => exact .nullary fun _ _ => .pure _
  | fold =>
    refine .ternary fun operation accumulator v hasked hown => ?_
    refine .bind (argument_fails hown toSequence_coercesTo rfl rfl) fun items hitems => ?_
    obtain rfl := coerceArgument_toSequence_eq_ok hitems
    exact foldItems_fails fun t e h => hasked t e (.fold h)
  | map =>
    refine .binary fun operation v hasked hown => ?_
    refine .bind (argument_fails hown toSequence_coercesTo rfl rfl) fun items hitems => ?_
    obtain rfl := coerceArgument_toSequence_eq_ok hitems
    exact .bind (evaluateEach_fails fun t e h => hasked t e (.map h)) fun _ _ => .pure _
  | concat =>
    refine .binary fun left right _ hown => ?_
    by_cases hrefused : (refusesConcat left.kind || refusesConcat right.kind) = true
    · rw [if_pos hrefused]
      rw [Bool.or_eq_true] at hrefused
      exact .fail (hown _ (.concat hrefused))
    · rw [if_neg hrefused]
      exact .pure _
  | push =>
    refine .binary fun v item _ hown => ?_
    exact .bind (argument_fails hown toSequence_coercesTo rfl rfl) fun items _ => .pure _
  | head =>
    refine .unary fun v _ hown => .bind (splitFirst_fails ?_ ?_) fun _ _ => .pure _
    · exact fun hfits => hown _ (.kind rfl rfl hfits)
    · rintro rfl
      exact hown _ (.empty (.inl rfl))
  | tail =>
    refine .unary fun v _ hown => .bind (splitFirst_fails ?_ ?_) fun _ _ => .pure _
    · exact fun hfits => hown _ (.kind rfl rfl hfits)
    · rintro rfl
      exact hown _ (.empty (.inr rfl))
  | length =>
    refine .unary fun v _ hown => ?_
    refine .bind (argument_fails hown toSequence_coercesTo rfl rfl) fun items hitems => ?_
    obtain rfl := coerceArgument_toSequence_eq_ok hitems
    exact .bind (checkRange_fails fun h => hown _ (.overflow rfl h)) fun _ _ => .pure _
  | arithmetic op =>
    refine .binary fun left right _ hown => ?_
    refine .bind (argument_fails hown toNumber_coercesTo rfl rfl) fun a ha => ?_
    refine .bind (argument_fails hown toNumber_coercesTo rfl rfl) fun b hb => ?_
    obtain rfl := coerceArgument_toNumber_eq_ok ha
    obtain rfl := coerceArgument_toNumber_eq_ok hb
    cases hresult : op.compute a b with
    | none =>
      obtain ⟨hop, rfl⟩ := Arithmetic.compute_eq_none_iff.1 hresult
      exact .fail (hown _ (.division hop))
    | some n =>
      exact .bind (checkRange_fails fun h => hown _ (.overflow hresult h)) fun _ _ => .pure _
  | comparison op =>
    refine .binary fun left right _ hown => ?_
    refine .bind (argument_fails hown toNumber_coercesTo rfl rfl) fun a _ => ?_
    exact .bind (argument_fails hown toNumber_coercesTo rfl rfl) fun b _ => .pure _
  | and =>
    refine .binary fun left right _ hown => ?_
    refine .bind (argument_fails hown toBoolean_coercesTo rfl rfl) fun a _ => ?_
    exact .bind (argument_fails hown toBoolean_coercesTo rfl rfl) fun b _ => .pure _
  | or =>
    refine .binary fun left right _ hown => ?_
    refine .bind (argument_fails hown toBoolean_coercesTo rfl rfl) fun a _ => ?_
    exact .bind (argument_fails hown toBoolean_coercesTo rfl rfl) fun b _ => .pure _
  | not =>
    refine .unary fun v _ hown => .bind (argument_fails hown toBoolean_coercesTo rfl rfl) ?_
    exact fun b _ => .pure _

theorem Native.call_fails {native : Native} {s : Scope} {name : Name} (hlabel : s.label = name)
    {vs : List Value} (hasked : ∀ t e, native.Asks ev s vs t e → (ev t e).FailsOnlyWith Q)
    (hown : ∀ error, native.Raises name.text vs error → Q error) :
    (native.call ev s name vs).FailsOnlyWith Q := by
  subst hlabel
  by_cases hlength : vs.length = native.arity
  · exact call_runs (procedure_fails native s) hlength s.label hasked hown
  · rw [call_of_length_ne hlength]
    by_cases hfew : vs.length < native.arity
    · rw [if_pos hfew]
      exact .pure _
    · rw [if_neg hfew]
      exact .fail (hown _ (.many (by omega)))

theorem SpecialForm.run_fails {form : SpecialForm} {s : Scope} {arguments : List Value}
    (hasked : ∀ t e, form.Asks ev s arguments t e → (ev t e).FailsOnlyWith Q)
    (hown : ∀ error, form.Raises ev s arguments error → Q error) :
    (form.run ev s arguments).FailsOnlyWith Q := by
  by_cases hcount : arguments.length = form.argumentCount
  · cases form with
    | define =>
      obtain ⟨target, e, rfl⟩ := List.length_eq_two.1 hcount
      refine .bind (coerceArgument_fails toSymbolName_coercesTo ?_) ?_
      · exact fun h => hown _ (.name (.inl rfl) hcount h)
      · exact fun name _ => .bind (hasked _ _ .value) fun _ _ => .pure _
    | defineFunction =>
      obtain ⟨target, parameters, body, rfl⟩ := List.length_eq_three.1 hcount
      refine .bind (coerceArgument_fails toSymbolName_coercesTo ?_) ?_
      · exact fun h => hown _ (.name (.inr rfl) hcount h)
      · intro name _
        exact .bind (closure_fails fun m h => hown _ (.namedParameters h)) fun _ _ => .pure _
    | function =>
      obtain ⟨parameters, body, rfl⟩ := List.length_eq_two.1 hcount
      exact .bind (closure_fails fun m h => hown _ (.parameters h)) fun _ _ => .pure _
    | choose =>
      obtain ⟨test, yes, no, rfl⟩ := List.length_eq_three.1 hcount
      refine .bind (hasked _ _ .test) ?_
      rintro ⟨t, v⟩ hv
      refine .bind (coerceArgument_fails toBoolean_coercesTo fun h => hown _ (.test hv h)) ?_
      intro b hb
      obtain rfl := coerceArgument_toBoolean_eq_ok hb
      have hbranch := hasked t _ (.branch hv)
      cases b with
      | true => exact hbranch
      | false => exact hbranch
  · have hrun : form.run ev s arguments =
        Run.fail (.argumentCount s.label.text form.argumentCount arguments.length) := by
      unfold run
      split <;> first | exact absurd rfl hcount | rfl
    rw [hrun]
    exact .fail (hown _ (.count hcount))

theorem Function.apply_fails {f : Function} {s : Scope} {arguments : List Value}
    (hasked : ∀ t e, f.Asks s arguments t e → (ev t e).FailsOnlyWith Q)
    (hown : ∀ error, f.Raises s.label.text arguments error → Q error) :
    (f.apply ev s arguments).FailsOnlyWith Q := by
  rcases Nat.lt_trichotomy (f.applied.length + arguments.length) f.arity with
    hfew | hlength | hmany
  · rw [Function.apply_of_length_lt hfew]
    exact .pure _
  · rw [Function.apply_of_length_eq hlength]
    exact .bind (hasked _ _ (.body hlength)) fun _ _ => .pure _
  · rw [Function.apply_of_lt_length hmany]
    exact .fail (hown _ (.many hmany))

theorem evaluateNamed_fails (hlabel : ev.KeepsLabel) {s : Scope} {name : Name} {tail : List Value}
    (hasked : ∀ t e, FormAsks ev s (.symbol name :: tail) t e → (ev t e).FailsOnlyWith Q)
    (hown : ∀ error, FormRaises ev s (.symbol name :: tail) error → Q error) :
    (evaluateNamed ev (s.relabel name) name tail).FailsOnlyWith Q := by
  unfold evaluateNamed
  split
  · rename_i form hform
    exact SpecialForm.run_fails (fun t e h => hasked t e (.special hform h))
      fun error h => hown error (.special hform h)
  rename_i hspecial
  refine .bind (evaluateEach_fails fun t e h => hasked t e (.argument hspecial h)) ?_
  rintro ⟨after, vs⟩ hvs
  -- An error names what the scope is labelled with, which the arguments leave as it was.
  have hcontext : after.label = name := evaluateEach_label hlabel hvs
  simp only
  by_cases hlist : name.text = listConstructor
  · simp only [if_pos hlist]
    exact .pure _
  simp only [if_neg hlist]
  split
  · rename_i native hnative
    exact Native.call_fails hcontext (fun t e h => hasked t e (.native hnative hvs h))
      fun error h => hown error (.native hnative hvs h)
  rename_i hnative
  have hname : name.IsOrdinary := ⟨hspecial, hlist, hnative⟩
  cases hlookup : after.get? name.text with
  | none => exact .fail (hown _ (.unbound hname hvs hlookup))
  | some v =>
    cases hcallee : v.toFunction? with
    | none =>
      simp only [hcallee]
      exact .fail (hown _ (.boundToOther hname hvs hlookup hcallee))
    | some f =>
      rw [Value.toFunction?_eq_some_iff.1 hcallee] at hlookup
      simp only [hcallee]
      refine Function.apply_fails (fun t e h => hasked t e (.bound hname hvs hlookup h)) ?_
      rw [hcontext]
      exact fun error h => hown error (.bound hname hvs hlookup h)

theorem evaluateForm_fails (hlabel : ev.KeepsLabel) {s : Scope} {items : List Value}
    (hasked : ∀ t e, FormAsks ev s items t e → (ev t e).FailsOnlyWith Q)
    (hown : ∀ error, FormRaises ev s items error → Q error) :
    (evaluateForm ev s items).FailsOnlyWith Q := by
  unfold evaluateForm
  split
  · exact .pure _
  · exact evaluateNamed_fails hlabel hasked hown
  · rename_i head tail hsymbol
    have hhead : ∀ name, head ≠ .symbol name := fun name heq => hsymbol name heq
    refine .bind ?_ ?_
    · unfold evaluateHead
      split
      · exact hasked _ _ .head
      · exact .pure _
    rintro ⟨between, callee⟩ hcallee
    simp only
    split
    · rename_i f hf
      rw [Value.toFunction?_eq_some_iff.1 hf] at hcallee
      refine .bind (evaluateEach_fails fun t e h => hasked t e (.argumentOf hhead hcallee h)) ?_
      rintro ⟨after, vs⟩ hvs
      have hcontext : after.label = Scope.anonymousLabel := evaluateEach_label hlabel hvs
      refine Function.apply_fails (fun t e h => hasked t e (.computed hhead hcallee hvs h)) ?_
      rw [hcontext]
      exact fun error h => hown error (.computed hhead hcallee hvs h)
    · rename_i hcannot
      exact .fail (hown _ (.notCallable hhead hcallee hcannot))

end

/-! ## The budget -/

theorem evaluate_keepsLabel (budget : Nat) : (evaluate budget).KeepsLabel := by
  intro s e t v h
  by_cases he : ∃ items, e = .sequence items
  · obtain ⟨items, rfl⟩ := he
    cases budget with
    | zero => cases h
    | succ budget =>
      rw [evaluate_sequence] at h
      obtain ⟨⟨after, w⟩, -, h⟩ := Run.result_bind_eq_ok.1 h
      cases h
      rfl
  · obtain ⟨w, hw⟩ | ⟨name, -, -, hname⟩ := evaluate_cases_of_ne_sequence he budget s
    · rw [hw] at h
      cases h
      rfl
    · rw [hname] at h
      cases h

/-- What is known of the errors that expressions raise themselves, and passes to a form from what it
asks for, is known of all errors of evaluation. -/
theorem evaluate_fails {Q : Nat → Scope → Value → Error → Prop}
    (hasked : ∀ {budget s items t e error}, FormAsks (evaluate budget) s items t e →
      Q budget t e error → Q (budget + 1) s (.sequence items) error)
    (hown : ∀ {budget s e error}, Raises budget s e error → Q budget s e error)
    (budget : Nat) (s : Scope) (e : Value) :
    (evaluate budget s e).FailsOnlyWith (Q budget s e) := by
  -- A list asks for evaluations with a budget that is one less.
  induction budget generalizing s e with
  | zero =>
    by_cases he : ∃ items, e = .sequence items
    · obtain ⟨items, rfl⟩ := he
      exact .fail (hown .depth)
    · exact evaluate_fails_of_ne_sequence he fun _ h => hown h
  | succ budget ih =>
    by_cases he : ∃ items, e = .sequence items
    · obtain ⟨items, rfl⟩ := he
      rw [evaluate_sequence]
      refine .bind ?_ fun _ _ => .pure _
      exact evaluateForm_fails (evaluate_keepsLabel budget)
        (fun t e hasks => (ih t e).mono fun error h => hasked hasks h)
        (fun error h => hown (.form h))
    · exact evaluate_fails_of_ne_sequence he fun _ h => hown h

/-- Every error of an evaluation is raised by one of the expressions that it involves. -/
theorem evaluate_raises (budget : Nat) (s : Scope) (e : Value) :
    (evaluate budget s e).FailsOnlyWith fun error =>
      ∃ budget' s' e', Involves budget s e budget' s' e' ∧ Raises budget' s' e' error := by
  refine evaluate_fails (Q := fun budget s e error => ∃ budget' s' e',
    Involves budget s e budget' s' e' ∧ Raises budget' s' e' error) ?_ ?_ budget s e
  · rintro budget s items t e error hasks ⟨budget', s', e', hinvolves, hraises⟩
    exact ⟨budget', s', e', .part hasks hinvolves, hraises⟩
  · exact fun hraises => ⟨_, _, _, .self, hraises⟩

/-- Evaluation gives a scope with a value, or one of the ten errors of evaluation, which one of the
expressions that come to be evaluated raises for what is wrong with that expression itself. No
native runs on more or fewer values than it is for: this would show as an error of too many
arguments with no more arguments than there are parameters. -/
theorem evaluate_ok_or_raises (budget : Nat) (s : Scope) (e : Value) :
    (∃ t v, (evaluate budget s e).result = .ok (t, v)) ∨
      ∃ error, (evaluate budget s e).result = .error error ∧ EvaluationError error ∧
        ∃ budget' s' e', Involves budget s e budget' s' e' ∧ Raises budget' s' e' error := by
  cases hresult : (evaluate budget s e).result with
  | ok result =>
    obtain ⟨t, v⟩ := result
    exact .inl ⟨t, v, rfl⟩
  | error error =>
    obtain ⟨budget', s', e', hinvolves, hraises⟩ := evaluate_raises budget s e error hresult
    exact .inr ⟨error, rfl, hraises.evaluationError, budget', s', e', hinvolves, hraises⟩

/-- No error of another kind comes out of evaluation. -/
theorem evaluate_isEvaluation (budget : Nat) (s : Scope) (e : Value) :
    (evaluate budget s e).FailsOnlyWith (·.isEvaluation) :=
  (evaluate_raises budget s e).mono fun _ ⟨_, _, _, _, hraises⟩ =>
    hraises.evaluationError.isEvaluation

theorem Error.isEvaluation_withLimit (limit : Nat) (e : Error) :
    (e.withLimit limit).isEvaluation = e.isEvaluation := by
  cases e <;> rfl

theorem evaluateWithin_isEvaluation (limit : Nat) (s : Scope) (e : Value) :
    (evaluateWithin limit s e).FailsOnlyWith (·.isEvaluation) :=
  (evaluate_isEvaluation limit s e).mapError fun error h => by
    rwa [Error.isEvaluation_withLimit]

/-- The error about a number out of range names the native and carries the exact result of a call
of that native, which the evaluation involves. -/
theorem evaluate_overflow {budget : Nat} {s : Scope} {e : Value} {context : String} {n : Int}
    (h : (evaluate budget s e).result = .error (.overflow context n)) :
    ¬ Number.InRange n ∧ ∃ budget' t items,
      Involves budget s e (budget' + 1) t (.sequence items) ∧
        FormComputes (evaluate budget') t items context n := by
  obtain ⟨budget', s', e', hinvolves, hraises⟩ := evaluate_raises budget s e _ h
  cases hraises with
  | form hform =>
    cases hform with
    | special hspecial hraises => cases hraises
    | native hnative hvs hraises =>
      cases hraises with
      | overflow hresult hrange =>
        exact ⟨hrange, _, _, _, hinvolves, .call hnative hvs hresult⟩
    | bound _ _ _ hraises => cases hraises
    | computed _ _ _ hraises => cases hraises

end MiniLisp
