import MiniLisp.Proofs.Evaluation.Occurrence

/-!
# What nobody mentions has no influence

Code reaches a binding through a symbol of that name. If the symbol occurs neither in an expression
nor in what the other names are bound to, it occurs in nothing that evaluation makes of them, unless
it is a parameter of a native in want of arguments. So what the name is bound to, if anything, makes
no difference to what evaluation ends in (`unmentioned_binding_irrelevant`).
-/

namespace MiniLisp

namespace Value

/-- The symbol with this name occurs in the value. -/
def Mentions (v : Value) (x : String) : Prop :=
  ∃ name : Name, name.text = x ∧ (symbol name).Occurs v

theorem not_mentions_iff {v : Value} {x : String} : ¬ v.Mentions x ↔
    v.Everywhere fun part => ∀ name : Name, part = .symbol name → name.text ≠ x := by
  constructor
  · rintro h _ hpart name rfl hname
    exact h ⟨name, hname, hpart⟩
  · rintro h ⟨name, hname, hpart⟩
    exact h (.symbol name) hpart name rfl hname

theorem shallow_unmentioned {x : String} (hx : x ∉ Native.parameterNames.map Name.text) :
    Shallow fun part => ∀ name : Name, part = .symbol name → name.text ≠ x where
  unit := nofun
  boolean _ := nofun
  text _ := nofun
  number _ := nofun
  parameter hmem name heq hname := by
    cases heq
    rw [← hname] at hx
    exact hx (List.mem_map_of_mem hmem)
  quoted _ := nofun
  sequence _ := nofun
  function _ := nofun

end Value

/-- Scopes with the same label that agree on visible names, and bind these to values of a class
only. What they print may differ. -/
def Simulation.agreeing (K : ValueClass) (visible : String → Prop)
    (hvisible : ∀ name : Name, K.Has (.symbol name) → visible name.text) : Simulation where
  toValueClass := K
  Scopes s t := s.label = t.label ∧ (∀ x, visible x → s.get? x = t.get? x) ∧
    (Invariant.binding K visible hvisible).Holds s
  Lines _ _ := True
  line_refl _ := trivial
  line_render _ := trivial
  initial := ⟨rfl, fun _ _ => rfl, (Invariant.binding K visible hvisible).initial⟩
  label h := h.1
  relabel h c := ⟨rfl, h.2.1, (Invariant.binding K visible hvisible).relabel h.2.2 c⟩
  bind {s t} h name v hv := by
    refine ⟨h.1, fun x hx => ?_, (Invariant.binding K visible hvisible).bind h.2.2 name hv⟩
    rw [Scope.get?_bind, Scope.get?_bind, h.2.1 x hx]
  get? {s t} h name hname := by
    have hget : s.get? name.text = t.get? name.text := h.2.1 name.text (hvisible name hname)
    refine ⟨hget, fun v hv => ?_⟩
    rw [← hget] at hv
    exact (Invariant.binding K visible hvisible).get? h.2.2 hname hv

/-- A binding whose name no other part of the scope and no part of the expression mentions has no
influence: two scopes that agree on all other names lead to the same value or the same error. The
scopes that are left agree on all other names again, and still nothing mentions the name. -/
theorem unmentioned_binding_irrelevant {x : String}
    (hx : x ∉ Native.parameterNames.map Name.text) (budget : Nat) {s t : Scope}
    (hlabel : s.label = t.label) (hagree : ∀ y, y ≠ x → s.get? y = t.get? y)
    (hbound : ∀ y, y ≠ x → ∀ v, s.get? y = some v → ¬ v.Mentions x) {e : Value}
    (he : ¬ e.Mentions x) :
    (∃ s' t' v, (evaluate budget s e).result = .ok (s', v) ∧
        (evaluate budget t e).result = .ok (t', v) ∧ s'.label = t'.label ∧
        (∀ y, y ≠ x → s'.get? y = t'.get? y) ∧ ¬ v.Mentions x ∧
        ∀ y, y ≠ x → ∀ w, s'.get? y = some w → ¬ w.Mentions x) ∨
      ∃ error, (evaluate budget s e).result = .error error ∧
        (evaluate budget t e).result = .error error := by
  let K : ValueClass := .everywhere (Value.shallow_unmentioned hx)
  have hvisible : ∀ name : Name, K.Has (.symbol name) → name.text ≠ x := fun name h =>
    Value.everywhere_symbol_iff.1 h name rfl
  let σ : Simulation := .agreeing K (· ≠ x) hvisible
  have hscopes : σ.Scopes s t :=
    ⟨hlabel, hagree, fun y hy v hv => Value.not_mentions_iff.1 (hbound y hy v hv)⟩
  have hstep : σ.InStep (evaluate budget s e) (evaluate budget t e) :=
    Simulation.evaluate_inStep budget hscopes (Value.not_mentions_iff.1 he)
  obtain ⟨s', t', v, hs, ht, ⟨hlabel', hagree', hbound'⟩, hv⟩ | herror := hstep.result_cases
  · exact .inl ⟨s', t', v, hs, ht, hlabel', hagree', Value.not_mentions_iff.2 hv,
      fun y hy w hw => Value.not_mentions_iff.2 (hbound' y hy w hw)⟩
  · exact .inr herror

/-- One scope binds a name that the other lacks, and the expression makes a function of a native,
calls it, and binds a third name. -/
theorem unmentioned_binding_irrelevant_adding :
    ∃ (s t s' t' : Scope) (e : Value), s.get? "secret" = some (.number 1) ∧
      t.get? "secret" = none ∧
      (evaluate 3 s e).result = .ok (s', .sequence [.number 3, .unit]) ∧
      (evaluate 3 t e).result = .ok (t', .sequence [.number 3, .unit]) ∧
      s'.get? "secret" = some (.number 1) ∧ ∀ y, y ≠ "secret" → s'.get? y = t'.get? y := by
  let y : Value := .symbol ⟨"y", by decide⟩
  let addOne : Value := callForm ⟨"+", by decide⟩ [.number 1]
  let define : Value := callForm ⟨"def!", by decide⟩ [.symbol ⟨"z", by decide⟩, y]
  let e : Value := callForm ⟨"list", by decide⟩ [.sequence [addOne, y], define]
  let t : Scope := Scope.initial.bind "y" (.number 2)
  let s : Scope := t.bind "secret" (.number 1)
  have hx : "secret" ∉ Native.parameterNames.map Name.text := by decide
  let K : Invariant := .everywhere (Value.shallow_unmentioned hx)
  have hsymbol : ∀ name : Name, name.text ≠ "secret" → K.Has (.symbol name) := by
    refine fun name hname => Value.everywhere_symbol_iff.2 ?_
    rintro _ ⟨⟩
    exact hname
  have hy : K.Has y := hsymbol _ (by decide)
  have haddOne : K.Has addOne :=
    K.cons (hsymbol _ (by decide)) (K.cons (K.number (by decide)) K.nil)
  have hsum : K.Has (.sequence [addOne, y]) := K.cons haddOne (K.cons hy K.nil)
  have hdefine : K.Has define :=
    K.cons (hsymbol _ (by decide)) (K.cons (hsymbol _ (by decide)) (K.cons hy K.nil))
  have he : K.Has e := K.cons (hsymbol _ (by decide)) (K.cons hsum (K.cons hdefine K.nil))
  have hagree : ∀ x, x ≠ "secret" → s.get? x = t.get? x := fun x hne => by
    rw [Scope.get?_bind, if_neg hne]
  have hholds : K.Holds s :=
    K.bind (K.bind K.initial "y" (K.number (by decide))) "secret" (K.number (by decide))
  have hbound : ∀ x, x ≠ "secret" → ∀ v, s.get? x = some v → ¬ v.Mentions "secret" :=
    fun x _ v hv => Value.not_mentions_iff.2 (hholds x trivial v hv)
  have hlabel : s.label = t.label := rfl
  have hs : (evaluate 3 s e).result =
      .ok (s.bind "z" (.number 2), .sequence [.number 3, .unit]) := rfl
  obtain ⟨s', t', v, hs', ht', -, hafter, -⟩ | ⟨error, herror, -⟩ :=
    unmentioned_binding_irrelevant hx 3 hlabel hagree hbound (Value.not_mentions_iff.2 he)
  · rw [hs] at hs'
    cases hs'
    exact ⟨s, t, s.bind "z" (.number 2), t', e, rfl, rfl, hs, ht', rfl, hafter⟩
  · rw [hs] at herror
    cases herror

end MiniLisp
