import MiniLisp.Proofs.Session.Reachable

/-!
# No saturated function escapes

A function with all its arguments is a call, and a call is carried out at once. So a function that
evaluation gives waits for arguments, wherever it stands in the value, save one that takes none and
has received none (`no_saturated_function_escapes`).
-/

namespace MiniLisp

/-- The function has fewer arguments than parameters, or none of either. -/
def Function.Waits (f : Function) : Prop :=
  f.applied.length < f.arity ∨ f.arity = 0 ∧ f.applied = []

namespace Value

/-- Every function that occurs in the value waits. -/
def WellSaturated (v : Value) : Prop :=
  v.Everywhere fun part => ∀ f : Function, part = f.toValue → f.Waits

theorem shallow_wellSaturated : Shallow fun part => ∀ f : Function, part = f.toValue → f.Waits where
  unit := nofun
  boolean _ := nofun
  text _ := nofun
  number _ := nofun
  parameter _ := nofun
  quoted _ := nofun
  sequence _ := nofun
  function {f} h g heq := by
    have hsame : g = f := Option.some.inj (toFunction?_eq_some_iff.2 heq).symm
    rw [hsame]
    rcases h with hnone | hfew
    · rcases Nat.eq_zero_or_pos f.arity with hzero | hpos
      · exact .inr ⟨hzero, hnone⟩
      · rw [← List.length_eq_zero_iff] at hnone
        exact .inl (hnone ▸ hpos)
    · exact .inl hfew

end Value

/-- From a scope and an expression in which no function is saturated evaluation gives values of the
same kind. So no state of a session that begins afresh binds a saturated function, at any depth of a
value, and no input is answered with one. -/
theorem no_saturated_function_escapes [Host] :
    (∀ (budget : Nat) (s after : Scope) (e v : Value),
      (∀ x w, s.get? x = some w → w.WellSaturated) → e.WellSaturated →
        (evaluate budget s e).result = .ok (after, v) →
          v.WellSaturated ∧ ∀ x w, after.get? x = some w → w.WellSaturated) ∧
    ∀ s : Session, s.Reachable → (∀ x w, s.scope.get? x = some w → w.WellSaturated) ∧
      ∀ source v, (s.eval source).2.result = .ok v → v.WellSaturated := by
  constructor
  · intro budget s after e v hs he hresult
    exact evaluate_keeps_everywhere Value.shallow_wellSaturated hs he hresult
  · intro s hs
    exact hs.everywhere Value.shallow_wellSaturated nofun

/-- Two functions that wait, one for its third argument and one that takes none, in one value. -/
theorem no_saturated_function_escapes_waiting :
    ∃ (s after : Scope) (e : Value) (partly constant : Function),
      s.get? "f" = some partly.toValue ∧
      (evaluate 2 s e).result =
        .ok (after, .sequence [(partly.receive [.number 2]).toValue, constant.toValue]) ∧
      (partly.receive [.number 2]).applied.length = 2 ∧ partly.arity = 3 ∧ constant.arity = 0 ∧
      (Value.sequence [(partly.receive [.number 2]).toValue, constant.toValue]).WellSaturated ∧
      ∀ x w, (({} : Session).eval "(def! f (fold +))").1.scope.get? x = some w →
        w.WellSaturated := by
  let partly : Function :=
    { parameters := ["x", "y", "z"], body := .symbol ⟨"z", by decide⟩, applied := [.number 1] }
  let constant : Function := { parameters := [], body := .number 0 }
  let s : Scope := Scope.initial.bind "f" partly.toValue
  let e : Value := callForm ⟨"list", by decide⟩ [callForm ⟨"f", by decide⟩ [.number 2],
    callForm ⟨"fn!", by decide⟩ [.sequence [], .number 0]]
  let K : Invariant := .everywhere Value.shallow_wellSaturated
  have hsymbol : ∀ name, K.Has (.symbol name) :=
    has_symbol_everywhere Value.shallow_wellSaturated nofun
  have hpartly : K.Has partly.toValue :=
    K.receive (f := { parameters := ["x", "y", "z"], body := .symbol ⟨"z", by decide⟩ })
      (K.closure (hsymbol _) _) (List.forall_mem_singleton.2 (K.number (by decide))) (by decide)
  have hs : ∀ x w, s.get? x = some w → w.WellSaturated := fun x w hw =>
    K.bind K.initial "f" hpartly x trivial w hw
  have hcall : K.Has (callForm ⟨"f", by decide⟩ [.number 2]) :=
    K.cons (hsymbol _) (K.cons (K.number (by decide)) K.nil)
  have hmake : K.Has (callForm ⟨"fn!", by decide⟩ [.sequence [], .number 0]) :=
    K.cons (hsymbol _) (K.cons K.nil (K.cons (K.number (by decide)) K.nil))
  have he : K.Has e := K.cons (hsymbol _) (K.cons hcall (K.cons hmake K.nil))
  have hresult : (evaluate 2 s e).result =
      .ok (s, .sequence [(partly.receive [.number 2]).toValue, constant.toValue]) := rfl
  obtain ⟨hevaluate, hsession⟩ := no_saturated_function_escapes
  exact ⟨s, s, e, partly, constant, rfl, hresult, rfl, rfl, rfl,
    (hevaluate 2 s s e _ hs he hresult).1, (hsession _ (.eval .fresh "(def! f (fold +))")).1⟩

end MiniLisp
