import MiniLisp.Proofs.Evaluation.Simulation

/-!
# Shadowed frames cannot be observed

Looking up a name finds a frame that no newer one shadows, and a scope is printed as its bindings.
So two scopes with the same label and the same bindings, in the same order, are told apart by no
evaluation, however many shadowed frames each of them holds (`shadowed_frames_unobservable`).
-/

namespace MiniLisp

namespace Scope

theorem lookup_filter_ne (frames : List (String × Value)) {x name : String} (h : x ≠ name) :
    (frames.filter (·.1 ≠ name)).lookup x = frames.lookup x := by
  induction frames with
  | nil => rfl
  | cons frame frames ih =>
    obtain ⟨other, v⟩ := frame
    by_cases hother : other = name
    · have hne : (x == other) = false := by
        rw [hother]
        exact beq_eq_false_iff_ne.2 h
      rw [List.filter_cons_of_neg (by simpa using hother), ih, List.lookup_cons, hne]
    · rw [List.filter_cons_of_pos (by simpa using hother), List.lookup_cons, List.lookup_cons, ih]

-- A shadowed frame is never the one that looking up finds.
theorem lookup_visible (frames : List (String × Value)) (x : String) :
    (visible frames).lookup x = frames.lookup x := by
  induction frames with
  | nil => rfl
  | cons frame frames ih =>
    obtain ⟨name, v⟩ := frame
    rw [visible_cons, List.lookup_cons, List.lookup_cons]
    cases hname : x == name with
    | true => rfl
    | false => rw [lookup_filter_ne _ (beq_eq_false_iff_ne.1 hname), ih]

theorem get?_eq_of_bindings_eq {s t : Scope} (h : s.bindings = t.bindings) (x : String) :
    s.get? x = t.get? x := by
  have hvisible : visible s.frames = visible t.frames := List.reverse_injective h
  unfold get?
  rw [← lookup_visible, hvisible, lookup_visible]

theorem render_eq_of_bindings_eq {s t : Scope} (h : s.bindings = t.bindings) :
    s.render = t.render := by
  unfold render
  rw [h]

end Scope

/-- Scopes with the same label and the same bindings. -/
def Simulation.sameBindings : Simulation where
  toValueClass := .all
  Scopes s t := s.label = t.label ∧ s.bindings = t.bindings
  Lines := Eq
  line_refl _ := rfl
  line_render h := Scope.render_eq_of_bindings_eq h.2
  initial := ⟨rfl, rfl⟩
  label h := h.1
  relabel h _ := ⟨rfl, h.2⟩
  bind h name v _ := ⟨h.1, by rw [Scope.bindings_bind, Scope.bindings_bind, h.2]⟩
  get? h name _ := ⟨Scope.get?_eq_of_bindings_eq h.2 name.text, fun _ _ => trivial⟩

/-- Evaluation sees no more of a scope than its label and its bindings. From two scopes that have
these in common it prints the same, and ends in one value and two such scopes again, or in one
error. -/
theorem shadowed_frames_unobservable (budget : Nat) {s t : Scope} (hlabel : s.label = t.label)
    (hbindings : s.bindings = t.bindings) (e : Value) :
    (evaluate budget s e).out = (evaluate budget t e).out ∧
      ((∃ s' t' v, (evaluate budget s e).result = .ok (s', v) ∧
          (evaluate budget t e).result = .ok (t', v) ∧
          s'.label = t'.label ∧ s'.bindings = t'.bindings) ∨
        ∃ error, (evaluate budget s e).result = .error error ∧
          (evaluate budget t e).result = .error error) := by
  have hscopes : Simulation.sameBindings.Scopes s t := ⟨hlabel, hbindings⟩
  have hstep : Simulation.sameBindings.InStep (evaluate budget s e) (evaluate budget t e) :=
    Simulation.evaluate_inStep budget hscopes trivial
  refine ⟨List.forall₂_eq_eq_eq ▸ hstep.out, ?_⟩
  obtain ⟨s', t', v, hs, ht, hscopes', -⟩ | herror := hstep.result_cases
  · exact .inl ⟨s', t', v, hs, ht, hscopes'.1, hscopes'.2⟩
  · exact .inr herror

/-- One of the scopes holds a frame that a newer one shadows. -/
theorem shadowed_frames_unobservable_printing :
    ∃ (s t s' t' : Scope) (e : Value), s.frames ≠ t.frames ∧
      (evaluate 2 s e).out = ["\x7b y: 1, x: true \x7d"] ∧
      (evaluate 2 t e).out = ["\x7b y: 1, x: true \x7d"] ∧
      (evaluate 2 s e).result = .ok (s', .sequence [.unit, .unit]) ∧
      (evaluate 2 t e).result = .ok (t', .sequence [.unit, .unit]) ∧ s'.bindings = t'.bindings := by
  let y : String × Value := ("y", .number 1)
  let s : Scope := ⟨Scope.mainLabel, [y, ("x", .unit), ("y", .text "old")]⟩
  let t : Scope := ⟨Scope.mainLabel, [y, ("x", .unit)]⟩
  let e : Value := callForm ⟨"list", by decide⟩ [
    callForm ⟨"def!", by decide⟩ [.symbol ⟨"x", by decide⟩, .boolean true],
    callForm ⟨"print_scope", by decide⟩ []]
  let s' : Scope := s.bind "x" (.boolean true)
  have hlabel : s.label = t.label := rfl
  have hbindings : s.bindings = t.bindings := rfl
  have hs : (evaluate 2 s e).result = .ok (s', .sequence [.unit, .unit]) := rfl
  have hprinted : (evaluate 2 s e).out = ["\x7b y: 1, x: true \x7d"] := rfl
  have hframes : s.frames ≠ t.frames := fun h => absurd (congrArg List.length h) (by decide)
  obtain ⟨hout, ⟨s'', t'', v, hs'', ht'', -, hafter⟩ | ⟨error, herror, -⟩⟩ :=
    shadowed_frames_unobservable 2 hlabel hbindings e
  · rw [hs] at hs''
    cases hs''
    rw [hprinted] at hout
    exact ⟨s, t, s', t'', e, hframes, hprinted, hout.symm, hs, ht'', hafter⟩
  · rw [hs] at herror
    cases herror

end MiniLisp
