import MiniLisp.Proofs.Evaluation.Arguments
import Mathlib.Data.List.Forall2

/-!
# Natives

What a native does is fixed by its arguments and the label, unless it evaluates code. Two runs of
such a native, in whatever scopes and for whatever evaluators, keep in step: they print the same and
end in the same error or the same value, and leave their scopes alone
(`Native.procedure_steady`). The value stays in every class of values that evaluation does not leave
(`ValueClass`).
-/

namespace MiniLisp

namespace Native

/-! ## Names and arity -/

theorem ofName?_excludes {s : String} {native : Native} (h : ofName? s = some native) :
    SpecialForm.ofName? s = none ∧ s ≠ listConstructor := by
  have htable : ∀ entry ∈ table,
      SpecialForm.ofName? entry.1 = none ∧ entry.1 ≠ listConstructor := by decide
  obtain ⟨front, back, heq, -⟩ := List.lookup_eq_some_iff.1 h
  have hmem : (s, native) ∈ table := by
    rw [heq]
    exact List.mem_append_right front List.mem_cons_self
  exact htable (s, native) hmem

/-- The names under which the function that a native gives receives its arguments. -/
def parameters (native : Native) : List Name := parameterNames.take native.arity

theorem length_parameters (native : Native) : native.parameters.length = native.arity := by
  cases native <;> rfl

theorem nodup_parameters (native : Native) : (native.parameters.map Name.text).Nodup := by
  have hall : (parameterNames.map Name.text).Nodup := by decide
  exact hall.sublist ((List.take_sublist native.arity parameterNames).map Name.text)

theorem arity_curried (native : Native) (name : Name) (applied : List Value) :
    (native.curried name applied).arity = native.arity := by
  have hmap : (native.parameters.map Name.text).length = native.parameters.length :=
    List.length_map Name.text
  exact hmap.trans native.length_parameters

end Native

/-- The number of values a procedure is for. -/
def Procedure.arity : Procedure → Nat
  | .nullary _ => 0
  | .unary _ => 1
  | .binary _ => 2
  | .ternary _ => 3

namespace Native

variable {ev ev' : Evaluator} {native : Native}

theorem arity_procedure (native : Native) (ev : Evaluator) (scope : Scope) :
    (native.procedure ev scope).arity = native.arity := by
  cases native <;> rfl

theorem call_of_length_ne {arguments : List Value} (h : arguments.length ≠ native.arity)
    (scope : Scope) (name : Name) :
    native.call ev scope name arguments =
      if arguments.length < native.arity then pure (scope, (native.curried name arguments).toValue)
      else Run.fail (.tooManyArguments name.text native.arity arguments.length) := by
  have harity := native.arity_procedure ev scope
  unfold call
  split
  · rename_i run heq
    rw [heq] at harity
    exact absurd harity h
  · rename_i run a heq
    rw [heq] at harity
    exact absurd harity h
  · rename_i run a b heq
    rw [heq] at harity
    exact absurd harity h
  · rename_i run a b c heq
    rw [heq] at harity
    exact absurd harity h
  · rfl

end Native

/-! ## Runs in step -/

/-- Two runs whose lines correspond one to one, and whose results do or are the same error. -/
inductive Run.InStep {α β : Type} (L : String → String → Prop) (R : α → β → Prop) :
    Run α → Run β → Prop
  | ok {out out' : List String} {a : α} {b : β} (hout : List.Forall₂ L out out') (h : R a b) :
      InStep L R ⟨out, .ok a⟩ ⟨out', .ok b⟩
  | error {out out' : List String} (hout : List.Forall₂ L out out') (e : Error) :
      InStep L R ⟨out, .error e⟩ ⟨out', .error e⟩

namespace Run.InStep

variable {α β γ δ : Type} {L : String → String → Prop} {R R' : α → β → Prop} {S : γ → δ → Prop}

theorem pure {a : α} {b : β} (h : R a b) : InStep L R (Pure.pure a) (Pure.pure b) := .ok .nil h

theorem fail (e : Error) : InStep L R (Run.fail e) (Run.fail e) := .error .nil e

theorem bind {x : Run α} {y : Run β} {f : α → Run γ} {g : β → Run δ} (h : InStep L R x y)
    (hf : ∀ a b, R a b → InStep L S (f a) (g b)) : InStep L S (x >>= f) (y >>= g) := by
  cases h with
  | error hout e => exact .error hout e
  | @ok out out' a b hout hab =>
    have hnext := hf a b hab
    rw [bind_ok, bind_ok]
    generalize f a = x at hnext ⊢
    generalize g b = y at hnext ⊢
    cases hnext with
    | ok hout' hcd => exact .ok (List.rel_append hout hout') hcd
    | error hout' e => exact .error (List.rel_append hout hout') e

theorem mono {x : Run α} {y : Run β} (h : InStep L R x y) (hR : ∀ a b, R a b → R' a b) :
    InStep L R' x y := by
  cases h with
  | ok hout hab => exact .ok hout (hR _ _ hab)
  | error hout e => exact .error hout e

theorem out {x : Run α} {y : Run β} (h : InStep L R x y) : List.Forall₂ L x.out y.out := by
  cases h with
  | ok hout _ => exact hout
  | error hout _ => exact hout

theorem of_result_ok {x : Run α} {y : Run β} (h : InStep L R x y) {a : α} {b : β}
    (hx : x.result = .ok a) (hy : y.result = .ok b) : R a b := by
  cases h with
  | ok hout hab =>
    cases hx
    cases hy
    exact hab
  | error hout e => cases hx

-- A first part that is the same in both.
theorem bind_ofExcept {result : Except Error α} {f : α → Run γ} {g : α → Run δ}
    (hf : ∀ a, result = .ok a → InStep L S (f a) (g a)) :
    InStep L S (ofExcept result >>= f) (ofExcept result >>= g) := by
  cases result with
  | ok a => exact hf a rfl
  | error e => exact .error .nil e

theorem bind_print {line line' : String} {f : Unit → Run α} {g : Unit → Run β}
    (hline : L line line') (hf : InStep L R (f ()) (g ())) :
    InStep L R (print line >>= f) (print line' >>= g) :=
  bind (.ok (R := fun _ _ => True) (.cons hline .nil) trivial) fun _ _ _ => hf

end Run.InStep

/-! ## Classes of values -/

/-- A class of values that evaluation does not leave. It may tell functions by their bodies and by
how many arguments they have received, and symbols by their names. -/
structure ValueClass where
  Has : Value → Prop
  unit : Has .unit
  boolean (b : Bool) : Has (.boolean b)
  text (s : String) : Has (.text s)
  number {n : Int} (h : Number.InRange n) : Has (.number n)
  quoted_iff {v : Value} : Has (.quoted v) ↔ Has v
  sequence_iff {vs : List Value} : Has (.sequence vs) ↔ ∀ v ∈ vs, Has v
  applied {f : Function} (h : Has f.toValue) : ∀ v ∈ f.applied, Has v
  /-- The body may be evaluated like any value of the class, or calls a native on the parameters. -/
  body {f : Function} (h : Has f.toValue) : Has f.body ∨
    ∃ native name, Native.ofName? name.text = some native ∧ f = native.curried name f.applied
  closure {body : Value} (h : Has body) (parameters : List String) :
    Has (Function.toValue { parameters := parameters, body := body })
  receive {f : Function} {arguments : List Value} (h : Has f.toValue)
    (harguments : ∀ v ∈ arguments, Has v) (hfew : f.applied.length + arguments.length < f.arity) :
    Has (f.receive arguments).toValue
  curried {native : Native} {name : Name} {arguments : List Value}
    (hname : Native.ofName? name.text = some native) (hsymbol : Has (.symbol name))
    (harguments : ∀ v ∈ arguments, Has v) (hfew : arguments.length < native.arity) :
    Has (native.curried name arguments).toValue

namespace ValueClass

variable (K : ValueClass)

theorem nil : K.Has (.sequence []) := K.sequence_iff.2 nofun

theorem cons {v : Value} {vs : List Value} (hv : K.Has v) (hvs : K.Has (.sequence vs)) :
    K.Has (.sequence (v :: vs)) :=
  K.sequence_iff.2 (List.forall_mem_cons.2 ⟨hv, K.sequence_iff.1 hvs⟩)

theorem has_of_get?_initial {x : String} {v : Value} (h : Scope.initial.get? x = some v) :
    K.Has v := by
  unfold Scope.initial at h
  simp only [Scope.get?_bind] at h
  split at h
  · cases h
    exact K.number (by decide)
  split at h
  · cases h
    exact K.number (by decide)
  · cases h

theorem has_of_get?_bind {s : Scope} {visible : String → Prop}
    (h : ∀ x, visible x → ∀ v, s.get? x = some v → K.Has v) {name : String} {v : Value}
    (hv : K.Has v) {x : String} (hx : visible x) {w : Value}
    (hw : (s.bind name v).get? x = some w) : K.Has w := by
  rw [Scope.get?_bind] at hw
  by_cases hname : x = name
  · rw [if_pos hname] at hw
    cases hw
    exact hv
  · rw [if_neg hname] at hw
    exact h x hx w hw

end ValueClass

/-- The class of all values. -/
def ValueClass.all : ValueClass where
  Has _ := True
  unit := trivial
  boolean _ := trivial
  text _ := trivial
  number _ := trivial
  quoted_iff := Iff.rfl
  sequence_iff := iff_of_true trivial fun _ _ => trivial
  applied _ := fun _ _ => trivial
  body _ := .inl trivial
  closure _ _ := trivial
  receive _ _ _ := trivial
  curried _ _ _ _ := trivial

/-- Two procedures for the same number of values, whose runs are related for values of a class. -/
inductive Procedure.Related (P : Value → Prop)
    (R : Run (Scope × Value) → Run (Scope × Value) → Prop) : Procedure → Procedure → Prop
  | nullary {x y} (h : R x y) : Related P R (.nullary x) (.nullary y)
  | unary {f g} (h : ∀ a, P a → R (f a) (g a)) : Related P R (.unary f) (.unary g)
  | binary {f g} (h : ∀ a b, P a → P b → R (f a b) (g a b)) : Related P R (.binary f) (.binary g)
  | ternary {f g} (h : ∀ a b c, P a → P b → P c → R (f a b c) (g a b c)) :
      Related P R (.ternary f) (.ternary g)

theorem Procedure.Related.mono {P : Value → Prop}
    {R R' : Run (Scope × Value) → Run (Scope × Value) → Prop} {p q : Procedure}
    (h : Related P R p q) (hR : ∀ x y, R x y → R' x y) : Related P R' p q := by
  cases h with
  | nullary h => exact .nullary (hR _ _ h)
  | unary h => exact .unary fun a ha => hR _ _ (h a ha)
  | binary h => exact .binary fun a b ha hb => hR _ _ (h a b ha hb)
  | ternary h => exact .ternary fun a b c ha hb hc => hR _ _ (h a b c ha hb hc)

theorem coerceArgument_eq_ok {α : Type} {coerce : Value → Except Mismatch α} {context : Name}
    {position : Nat} {v : Value} {a : α} (h : coerceArgument coerce context position v = .ok a) :
    coerce v = .ok a := by
  unfold coerceArgument at h
  cases hv : coerce v with
  | ok b =>
    rw [hv] at h
    cases h
    rfl
  | error m =>
    rw [hv] at h
    cases h

theorem coerceArgument_toSequence_eq_ok {context : Name} {position : Nat} {v : Value}
    {items : List Value} (h : coerceArgument Value.toSequence context position v = .ok items) :
    v = .sequence items := by
  have hv := coerceArgument_eq_ok h
  cases v <;> cases hv
  rfl

theorem Value.checkRange_number_eq_ok {context : String} {n : Int} {v : Value}
    (h : Value.checkRange context (.number n) = .ok v) : v = .number n ∧ Number.InRange n := by
  simp only [Value.checkRange] at h
  by_cases hrange : Number.InRange n
  · rw [if_pos hrange] at h
    cases h
    exact ⟨rfl, hrange⟩
  · rw [if_neg hrange] at h
    cases h

namespace Native

/-! ## Natives that evaluate no code -/

def evaluatesCode : Native → Bool
  | .eval | .fold | .map => true
  | _ => false

theorem splitFirst_eq_ok {scope : Scope} {v item : Value} {items : List Value}
    (h : splitFirst scope v = .ok (item, items)) : v = .sequence (item :: items) := by
  unfold splitFirst at h
  cases hcoerce : coerceArgument Value.toSequence scope.label 0 v with
  | error e =>
    rw [hcoerce] at h
    cases h
  | ok elements =>
    rw [hcoerce] at h
    rw [coerceArgument_toSequence_eq_ok hcoerce]
    cases elements with
    | nil => cases h
    | cons element elements =>
      cases h
      rfl

theorem splitFirst_congr {s t : Scope} (h : s.label = t.label) : splitFirst s = splitFirst t := by
  funext v
  unfold splitFirst
  rw [h]

theorem has_of_mem_concatPart (K : ValueClass) {v part : Value} (hv : K.Has v)
    (hpart : part ∈ concatPart v) : K.Has part := by
  unfold concatPart at hpart
  split at hpart
  · exact K.sequence_iff.1 hv part hpart
  · rw [List.mem_singleton.1 hpart]
    exact hv

/-- Runs that leave the scopes `s` and `t` as they are and give one value of the class. -/
def Steady (K : ValueClass) (L : String → String → Prop) (s t : Scope) :
    Run (Scope × Value) → Run (Scope × Value) → Prop :=
  Run.InStep L fun p q => p.1 = s ∧ q.1 = t ∧ p.2 = q.2 ∧ K.Has p.2

theorem Steady.pure {K : ValueClass} {L : String → String → Prop} {s t : Scope} {v : Value}
    (h : K.Has v) : Steady K L s t (Pure.pure (s, v)) (Pure.pure (t, v)) :=
  Run.InStep.pure ⟨rfl, rfl, rfl, h⟩

theorem Steady.checked (K : ValueClass) {L : String → String → Prop} {s t : Scope}
    (context : String) (n : Int) :
    Steady K L s t
      (do let v ← Run.ofExcept (Value.checkRange context (.number n)); Pure.pure (s, v))
      (do let v ← Run.ofExcept (Value.checkRange context (.number n)); Pure.pure (t, v)) := by
  refine .bind_ofExcept fun v hv => Steady.pure ?_
  obtain ⟨rfl, hrange⟩ := Value.checkRange_number_eq_ok hv
  exact K.number hrange

theorem procedure_steady (K : ValueClass) {L : String → String → Prop} (hrefl : ∀ line, L line line)
    {native : Native} (hcode : native.evaluatesCode = false) (harity : 0 < native.arity)
    (ev ev' : Evaluator) {s t : Scope} (hlabel : s.label = t.label) :
    Procedure.Related K.Has (Steady K L s t) (native.procedure ev s) (native.procedure ev' t) := by
  cases native with
  | eval => cases hcode
  | fold => cases hcode
  | map => cases hcode
  | printScope => cases harity
  | clearScope => cases harity
  | print =>
    refine .unary fun v hv => ?_
    rw [hlabel]
    exact .bind_ofExcept fun line hline => .bind_print (hrefl line) (Steady.pure K.unit)
  | debug => exact .unary fun v hv => .bind_print (hrefl v.render) (Steady.pure hv)
  | toText =>
    refine .unary fun v hv => ?_
    rw [hlabel]
    exact .bind_ofExcept fun n hn => Steady.pure (K.text n.repr)
  | concat =>
    refine .binary fun left right hleft hright => ?_
    by_cases hrefused : (refusesConcat left.kind || refusesConcat right.kind) = true
    · rw [if_pos hrefused, if_pos hrefused]
      exact .fail _
    · rw [if_neg hrefused, if_neg hrefused, joined_eq]
      refine Steady.pure (K.sequence_iff.2 fun v hv => ?_)
      rcases List.mem_append.1 hv with hv | hv
      · exact has_of_mem_concatPart K hleft hv
      · exact has_of_mem_concatPart K hright hv
  | push =>
    refine .binary fun v item hv hitem => ?_
    rw [hlabel]
    refine .bind_ofExcept fun items hitems => Steady.pure (K.sequence_iff.2 fun w hw => ?_)
    rw [coerceArgument_toSequence_eq_ok hitems] at hv
    rcases List.mem_append.1 hw with hw | hw
    · exact K.sequence_iff.1 hv w hw
    · rw [List.mem_singleton.1 hw]
      exact hitem
  | head =>
    refine .unary fun v hv => ?_
    rw [splitFirst_congr hlabel]
    refine .bind_ofExcept fun ⟨item, items⟩ hsplit => Steady.pure ?_
    rw [splitFirst_eq_ok hsplit] at hv
    exact K.sequence_iff.1 hv item List.mem_cons_self
  | tail =>
    refine .unary fun v hv => ?_
    rw [splitFirst_congr hlabel]
    refine .bind_ofExcept fun ⟨item, items⟩ hsplit =>
      Steady.pure (K.sequence_iff.2 fun w hw => ?_)
    rw [splitFirst_eq_ok hsplit] at hv
    exact K.sequence_iff.1 hv w (List.mem_cons_of_mem item hw)
  | length =>
    refine .unary fun v hv => ?_
    rw [hlabel]
    exact .bind_ofExcept fun items hitems => Steady.checked K t.label.text items.length
  | arithmetic op =>
    refine .binary fun left right hleft hright => ?_
    rw [hlabel]
    refine .bind_ofExcept fun a ha => .bind_ofExcept fun b hb => ?_
    cases op.compute a b with
    | none => exact .fail _
    | some n => exact Steady.checked K t.label.text n
  | comparison op =>
    refine .binary fun left right hleft hright => ?_
    rw [hlabel]
    exact .bind_ofExcept fun a ha => .bind_ofExcept fun b hb => Steady.pure (K.boolean _)
  | and =>
    refine .binary fun left right hleft hright => ?_
    rw [hlabel]
    exact .bind_ofExcept fun a ha => .bind_ofExcept fun b hb => Steady.pure (K.boolean _)
  | or =>
    refine .binary fun left right hleft hright => ?_
    rw [hlabel]
    exact .bind_ofExcept fun a ha => .bind_ofExcept fun b hb => Steady.pure (K.boolean _)
  | not =>
    refine .unary fun v hv => ?_
    rw [hlabel]
    exact .bind_ofExcept fun b hb => Steady.pure (K.boolean _)

/-! ## Calls -/

theorem call_related {P : Value → Prop} {R : Run (Scope × Value) → Run (Scope × Value) → Prop}
    {native : Native} {ev ev' : Evaluator} {s t : Scope} {name : Name} {arguments : List Value}
    (hprocedure : Procedure.Related P R (native.procedure ev s) (native.procedure ev' t))
    (harguments : ∀ v ∈ arguments, P v) (hlength : arguments.length = native.arity) :
    R (native.call ev s name arguments) (native.call ev' t name arguments) := by
  rw [← native.arity_procedure ev s] at hlength
  unfold call
  generalize native.procedure ev s = p at hprocedure hlength
  generalize native.procedure ev' t = q at hprocedure
  cases hprocedure with
  | nullary h =>
    obtain rfl := List.eq_nil_of_length_eq_zero hlength
    exact h
  | unary h =>
    obtain ⟨a, rfl⟩ := List.length_eq_one_iff.1 hlength
    exact h a (harguments a (by simp))
  | binary h =>
    obtain ⟨a, b, rfl⟩ := List.length_eq_two.1 hlength
    exact h a b (harguments a (by simp)) (harguments b (by simp))
  | ternary h =>
    obtain ⟨a, b, c, rfl⟩ := List.length_eq_three.1 hlength
    exact h a b c (harguments a (by simp)) (harguments b (by simp)) (harguments c (by simp))

theorem call_comparison (op : Comparison) (ev : Evaluator) (scope : Scope) (name : Name)
    (a b : Int) :
    (Native.comparison op).call ev scope name [.number a, .number b] =
      pure (scope, .boolean (op.holds a b)) := rfl

section

variable {native : Native} {name : Name} (hname : ofName? name.text = some native)
include hname

theorem evaluateNamed_eq_call {ev : Evaluator} {scope after : Scope} {es vs : List Value}
    (hes : evaluateEach ev scope es = pure (after, vs)) :
    evaluateNamed ev scope name es = native.call ev after name vs := by
  obtain ⟨hspecial, hlist⟩ := ofName?_excludes hname
  unfold evaluateNamed
  simp only [hspecial, hes, pure_bind, if_neg hlist, hname]

theorem evaluate_callForm {budget : Nat} {scope after : Scope} {es vs : List Value}
    (hes : evaluateEach (evaluate budget) (scope.relabel name) es = pure (after, vs)) :
    evaluate (budget + 1) scope (callForm name es) =
      relabelled scope.label (native.call (evaluate budget) after name vs) := by
  unfold callForm
  rw [evaluate_sequence, evaluateForm_symbol, evaluateNamed_eq_call hname hes]

/-- The call of a native on values as they are. -/
theorem evaluate_call (budget : Nat) (scope : Scope) (vs : List Value) :
    evaluate (budget + 1) scope (callForm name (vs.map .quoted)) =
      relabelled scope.label (native.call (evaluate budget) (scope.relabel name) name vs) :=
  evaluate_callForm hname (evaluateEach_quoted budget (scope.relabel name) vs)

/-- The body of the function that a native gives calls the native on the arguments, whatever the
scope binds. -/
theorem evaluate_body_curried (budget : Nat) (scope : Scope) (applied : List Value)
    {arguments : List Value} (hlength : arguments.length = native.arity) :
    evaluate (budget + 1) ((native.curried name applied).callScope scope arguments)
        (native.curried name applied).body =
      relabelled scope.label (native.call (evaluate budget)
        (((native.curried name applied).callScope scope arguments).relabel name) name
        arguments) := by
  have hbody : (native.curried name applied).body =
      .sequence (.symbol name :: native.parameters.map .symbol) := rfl
  have hlabel : ((native.curried name applied).callScope scope arguments).label = scope.label :=
    scope.label_bindAll _
  have hparameters := evaluateEach_parameters budget scope name native.nodup_parameters
    (native.length_parameters.trans hlength.symm)
  rw [hbody, evaluate_sequence, evaluateForm_symbol, hlabel]
  exact congrArg (relabelled scope.label) (evaluateNamed_eq_call hname hparameters)

end

end Native

end MiniLisp
