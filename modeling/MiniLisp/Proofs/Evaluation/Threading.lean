import MiniLisp.Proofs.Evaluation.Simulation

/-!
# What evaluation does to a scope

Evaluation adds frames to those it finds, or starts again from the frames of the initial scope
(`Scope.Grown`). What a called function does to its scope ends with the call: the frames are then
those that the head and the arguments left (`scope_grows_or_resets`).
-/

namespace MiniLisp

/-- The frames of `t` are new ones on top of all frames of `s`, or of the initial scope. -/
def Scope.Grown (s t : Scope) : Prop :=
  s.frames <:+ t.frames ∨ Scope.initial.frames <:+ t.frames

namespace Scope.Grown

variable {s t : Scope}

theorem refl (s : Scope) : s.Grown s := .inl (List.suffix_refl s.frames)

theorem bind (h : s.Grown t) (name : String) (v : Value) : s.Grown (t.bind name v) :=
  h.imp (List.suffix_cons_iff.2 <| .inr ·) (List.suffix_cons_iff.2 <| .inr ·)

/-- Growth from a scope, as an invariant of all that is evaluated from there. -/
def invariant (s : Scope) : Invariant where
  toValueClass := .all
  Holds := s.Grown
  initial := .inr (List.suffix_refl _)
  relabel h _ := h
  bind h name v _ := h.bind name v
  get? _ _ _ _ _ := trivial

end Scope.Grown

/-! ## Calls -/

theorem Function.apply_scope {f : Function} {ev : Evaluator} {scope after : Scope}
    {arguments : List Value} {v : Value}
    (h : (f.apply ev scope arguments).result = .ok (after, v)) : after = scope := by
  rcases Nat.lt_trichotomy (f.applied.length + arguments.length) f.arity with
    hfew | hlength | hmany
  · rw [Function.apply_of_length_lt hfew] at h
    cases h
    rfl
  · rw [Function.apply_of_length_eq hlength] at h
    exact Run.eq_of_returningTo_result h
  · rw [Function.apply_of_lt_length hmany] at h
    cases h

/-- The head of a form comes to the function `f`; evaluating the head, if it is a list, and then the
arguments leaves `after`. -/
inductive Resolves (ev : Evaluator) (scope : Scope) : Value → List Value → Function → Scope → Prop
  | named {name : Name} {tail vs : List Value} {f : Function} {after : Scope}
      (hname : name.IsOrdinary)
      (harguments : (evaluateEach ev (scope.relabel name) tail).result = .ok (after, vs))
      (hbound : after.get? name.text = some f.toValue) :
      Resolves ev scope (.symbol name) tail f after
  | computed {head : Value} {tail vs : List Value} {f : Function} {between after : Scope}
      (hhead : ∀ name, head ≠ .symbol name)
      (hcallee : (evaluateHead ev scope head).result = .ok (between, f.toValue))
      (harguments : (evaluateEach ev (between.relabel Scope.anonymousLabel) tail).result =
        .ok (after, vs)) :
      Resolves ev scope head tail f after

theorem Run.exists_out {α : Type} {x : Run α} {a : α} (h : x.result = .ok a) :
    ∃ out, x = ⟨out, .ok a⟩ := ⟨x.out, Run.ext rfl h⟩

theorem Resolves.evaluateForm_scope {ev : Evaluator} {scope after last : Scope} {head v : Value}
    {tail : List Value} {f : Function} (h : Resolves ev scope head tail f after)
    (hresult : (evaluateForm ev scope (head :: tail)).result = .ok (last, v)) : last = after := by
  cases h with
  | named hname harguments hbound =>
    obtain ⟨out, hrun⟩ := Run.exists_out harguments
    rw [evaluateForm_symbol, evaluateNamed_eq_apply hname hrun hbound] at hresult
    exact Function.apply_scope hresult
  | computed hhead hcallee harguments =>
    unfold evaluateForm at hresult
    split at hresult
    · rename_i hnil
      cases hnil
    · rename_i name tail' hcons
      cases hcons
      exact absurd rfl (hhead name)
    rename_i head' tail' hsymbol hcons
    cases hcons
    obtain ⟨out, hrun⟩ := Run.exists_out hcallee
    obtain ⟨out', hrun'⟩ := Run.exists_out harguments
    rw [hrun] at hresult
    simp only [Run.bind_ok, Value.toFunction?_toValue, hrun'] at hresult
    exact Function.apply_scope hresult

/-- What evaluation returns is some new frames on top of all frames of the scope it began in, or of
the initial scope. Where the head of a form comes to a function, nothing that the body binds or
clears is in the scope returned: its frames are those that the head and the arguments left. -/
theorem scope_grows_or_resets :
    (∀ (budget : Nat) (scope after : Scope) (e v : Value),
      (evaluate budget scope e).result = .ok (after, v) →
        scope.frames <:+ after.frames ∨ Scope.initial.frames <:+ after.frames) ∧
    ∀ (budget : Nat) (scope between after : Scope) (head v : Value) (tail : List Value)
      (f : Function), Resolves (evaluate budget) scope head tail f between →
        (evaluate (budget + 1) scope (.sequence (head :: tail))).result = .ok (after, v) →
          after.frames = between.frames := by
  constructor
  · intro budget scope after e v hresult
    have hgrown := (Scope.Grown.invariant scope).evaluate_keeps (Scope.Grown.refl scope) trivial
      hresult
    exact hgrown.1
  · intro budget scope between after head v tail f hresolves hresult
    rw [evaluate_sequence] at hresult
    obtain ⟨⟨last, w⟩, hform, hlabel⟩ := Run.result_bind_eq_ok.1 hresult
    rw [hresolves.evaluateForm_scope hform] at hlabel
    cases hlabel
    rfl

/-- The body binds a name and clears its scope; the caller keeps what the argument bound. -/
theorem scope_grows_or_resets_clearing :
    ∃ (scope between after : Scope) (e v : Value),
      (evaluate 3 scope e).result = .ok (after, v) ∧
      (scope.frames <:+ after.frames ∨ Scope.initial.frames <:+ after.frames) ∧
      between.get? "x" = some (.number 1) ∧ after.frames = between.frames := by
  let f : Function :=
    { parameters := ["a"]
      body := .sequence [.symbol ⟨"list", by decide⟩,
        .sequence [.symbol ⟨"def!", by decide⟩, .symbol ⟨"y", by decide⟩, .number 2],
        .sequence [.symbol ⟨"clear_scope", by decide⟩]] }
  let scope : Scope := Scope.initial.bind "f" f.toValue
  let name : Name := ⟨"f", by decide⟩
  let argument : Value :=
    .sequence [.symbol ⟨"def!", by decide⟩, .symbol ⟨"x", by decide⟩, .number 1]
  let between : Scope := (scope.bind "x" (.number 1)).relabel name
  have hname : name.IsOrdinary := ⟨by decide, by decide, by decide⟩
  have hargument : (evaluateEach (evaluate 2) (scope.relabel name) [argument]).result =
      .ok (between, [.unit]) := rfl
  have hresolves : Resolves (evaluate 2) scope (.symbol name) [argument] f between :=
    .named hname hargument rfl
  have hresult : (evaluate 3 scope (.sequence [.symbol name, argument])).result =
      .ok (between.relabel scope.label, .sequence [.unit, .unit]) := rfl
  have hgrown := scope_grows_or_resets.1 3 scope _ _ _ hresult
  have hkept := scope_grows_or_resets.2 2 scope between _ _ _ [argument] f hresolves hresult
  exact ⟨scope, between, _, .sequence [.symbol name, argument], _, hresult, hgrown, rfl, hkept⟩

end MiniLisp
