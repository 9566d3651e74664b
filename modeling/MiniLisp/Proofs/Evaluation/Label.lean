import MiniLisp.Evaluation

/-!
# The label is never control flow

Two runs from the same frames under two labels stay in step: they print the same and end in the same
value and frames, each under the label it began with, or in the same error, unless the budget ends
where the label is still the outer one (`SameUpToLabel`). A form sets a label of its own before it
does anything else, except that a head which is a list is evaluated under the outer label. So past
the head the two runs are one run, and the induction on the budget is needed for such heads only.
-/

namespace MiniLisp

/-- Two runs that began under the labels `c₁` and `c₂` and differ in nothing else. -/
inductive SameUpToLabel (c₁ c₂ : Name) : Run (Scope × Value) → Run (Scope × Value) → Prop
  | ok (out : List String) (frames : List (String × Value)) (v : Value) :
      SameUpToLabel c₁ c₂ ⟨out, .ok (⟨c₁, frames⟩, v)⟩ ⟨out, .ok (⟨c₂, frames⟩, v)⟩
  | error (out : List String) (e : Error) : SameUpToLabel c₁ c₂ ⟨out, .error e⟩ ⟨out, .error e⟩
  | depth (out : List String) (limit : Nat) :
      SameUpToLabel c₁ c₂ ⟨out, .error (.depthExceeded c₁.text limit)⟩
        ⟨out, .error (.depthExceeded c₂.text limit)⟩

variable {c₁ c₂ : Name}

/-- A run, with its scope put back under a label. -/
def relabelled (c : Name) (x : Run (Scope × Value)) : Run (Scope × Value) := do
  let (after, v) ← x
  pure (after.relabel c, v)

theorem sameUpToLabel_relabelled (x : Run (Scope × Value)) :
    SameUpToLabel c₁ c₂ (relabelled c₁ x) (relabelled c₂ x) := by
  rcases x with ⟨out, e | ⟨after, v⟩⟩
  · exact .error out e
  · have hout : out ++ [] = out := List.append_nil out
    simp only [relabelled, Run.bind_ok, Run.pure_eq, hout]
    exact .ok out after.frames v

-- The runs `x` and `y` differ as their labels do; what follows them no longer depends on these.
theorem SameUpToLabel.bind_relabelled {x y : Run (Scope × Value)} (h : SameUpToLabel c₁ c₂ x y)
    {f : Scope × Value → Run (Scope × Value)}
    (hf : ∀ frames v, f (⟨c₁, frames⟩, v) = f (⟨c₂, frames⟩, v)) :
    SameUpToLabel c₁ c₂ (relabelled c₁ (x >>= f)) (relabelled c₂ (y >>= f)) := by
  cases h with
  | ok out frames v =>
    rw [Run.bind_ok, Run.bind_ok, hf]
    exact sameUpToLabel_relabelled _
  | error out e => exact .error out e
  | depth out limit => exact .depth out limit

theorem evaluateHead_sameUpToLabel {ev : Evaluator} {frames : List (String × Value)}
    (h : ∀ e, SameUpToLabel c₁ c₂ (ev ⟨c₁, frames⟩ e) (ev ⟨c₂, frames⟩ e)) (head : Value) :
    SameUpToLabel c₁ c₂ (evaluateHead ev ⟨c₁, frames⟩ head)
      (evaluateHead ev ⟨c₂, frames⟩ head) := by
  unfold evaluateHead
  split
  · exact h _
  · exact .ok [] frames _

theorem evaluateForm_sameUpToLabel {ev : Evaluator} {frames : List (String × Value)}
    (h : ∀ e, SameUpToLabel c₁ c₂ (ev ⟨c₁, frames⟩ e) (ev ⟨c₂, frames⟩ e))
    (items : List Value) :
    SameUpToLabel c₁ c₂ (relabelled c₁ (evaluateForm ev ⟨c₁, frames⟩ items))
      (relabelled c₂ (evaluateForm ev ⟨c₂, frames⟩ items)) := by
  unfold evaluateForm
  split
  · exact .ok [] frames _
  · rename_i name tail
    -- The name at the head replaces either label.
    have hscope : Scope.relabel ⟨c₁, frames⟩ name = Scope.relabel ⟨c₂, frames⟩ name := rfl
    rw [hscope]
    exact sameUpToLabel_relabelled _
  · rename_i head tail hsymbol
    -- The arguments and the call come under the anonymous label, whatever the outer one is.
    refine (evaluateHead_sameUpToLabel h head).bind_relabelled fun frames' callee => ?_
    rfl

-- What is not a list looks at no label.
theorem evaluate_sameUpToLabel_of_ne_sequence {e : Value} (he : ¬ ∃ items, e = .sequence items)
    (budget : Nat) (frames : List (String × Value)) :
    SameUpToLabel c₁ c₂ (evaluate budget ⟨c₁, frames⟩ e) (evaluate budget ⟨c₂, frames⟩ e) := by
  cases e with
  | symbol name =>
    simp only [evaluate, Scope.get?]
    cases frames.lookup name.text with
    | some v => exact .ok [] frames v
    | none => exact .error [] _
  | sequence items => exact absurd ⟨items, rfl⟩ he
  | _ =>
    simp only [evaluate]
    exact .ok [] frames _

theorem evaluate_sameUpToLabel (budget : Nat) (frames : List (String × Value)) (e : Value) :
    SameUpToLabel c₁ c₂ (evaluate budget ⟨c₁, frames⟩ e) (evaluate budget ⟨c₂, frames⟩ e) := by
  induction budget generalizing frames e with
  | zero =>
    by_cases he : ∃ items, e = .sequence items
    · obtain ⟨items, rfl⟩ := he
      exact .depth [] 0
    · exact evaluate_sameUpToLabel_of_ne_sequence he 0 frames
  | succ budget ih =>
    by_cases he : ∃ items, e = .sequence items
    · obtain ⟨items, rfl⟩ := he
      exact evaluateForm_sameUpToLabel (ih frames) items
    · exact evaluate_sameUpToLabel_of_ne_sequence he _ frames

/-- Scopes with the same frames are told apart by no evaluation: both print the same, and end in the
same value and frames, each under its own label, or in the same error. Only an error about the depth
may name the label, and then each names its own. -/
theorem evaluate_ignores_label (budget : Nat) {s t : Scope} (h : s.frames = t.frames) (e : Value) :
    (evaluate budget s e).out = (evaluate budget t e).out ∧
      match (evaluate budget s e).result, (evaluate budget t e).result with
      | .ok (s', v), .ok (t', w) =>
        v = w ∧ s'.frames = t'.frames ∧ s'.label = s.label ∧ t'.label = t.label
      | .error e₁, .error e₂ =>
        e₁ = e₂ ∨ ∃ limit, e₁ = .depthExceeded s.label.text limit ∧
          e₂ = .depthExceeded t.label.text limit
      | _, _ => False := by
  obtain ⟨c₁, frames⟩ := s
  obtain ⟨c₂, frames'⟩ := t
  have hframes : frames = frames' := h
  subst hframes
  have hsame : SameUpToLabel c₁ c₂ (evaluate budget ⟨c₁, frames⟩ e)
      (evaluate budget ⟨c₂, frames⟩ e) := evaluate_sameUpToLabel budget frames e
  generalize evaluate budget ⟨c₁, frames⟩ e = x at hsame
  generalize evaluate budget ⟨c₂, frames⟩ e = y at hsame
  cases hsame with
  | ok out after v => exact ⟨rfl, rfl, rfl, rfl, rfl⟩
  | error out e => exact ⟨rfl, .inl rfl⟩
  | depth out limit => exact ⟨rfl, .inr ⟨limit, rfl, rfl⟩⟩

theorem evaluate_ignores_label_printing :
    ∃ e : Value, (evaluate 2 (Scope.empty Scope.anonymousLabel) e).out = ["a"] ∧
      ∃ after, (evaluate 2 (Scope.empty Scope.anonymousLabel) e).result =
          .ok (after, .sequence [.unit, .unit]) ∧
        after.label = Scope.anonymousLabel ∧ after.frames = Scope.initial.frames := by
  let e : Value := .sequence [.symbol ⟨"list", by decide⟩,
    .sequence [.symbol ⟨"print", by decide⟩, .text "a"],
    .sequence [.symbol ⟨"clear_scope", by decide⟩]]
  have hmain : evaluate 2 Scope.empty e =
      ⟨["a"], .ok (Scope.initial, .sequence [.unit, .unit])⟩ := rfl
  have hframes : Scope.empty.frames = (Scope.empty Scope.anonymousLabel).frames := rfl
  obtain ⟨hout, hresult⟩ := evaluate_ignores_label 2 hframes e
  rw [hmain] at hout hresult
  refine ⟨e, hout.symm, ?_⟩
  cases hr : (evaluate 2 (Scope.empty Scope.anonymousLabel) e).result with
  | error error =>
    rw [hr] at hresult
    exact hresult.elim
  | ok result =>
    rw [hr] at hresult
    obtain ⟨hv, hafter, -, hlabel⟩ := hresult
    exact ⟨result.1, by rw [hv], hlabel, hafter.symm⟩

end MiniLisp
