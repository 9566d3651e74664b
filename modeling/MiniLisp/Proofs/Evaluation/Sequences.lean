import MiniLisp.Proofs.Evaluation.Levels

/-!
# The algebra of sequences

What the natives on sequences do to values is what append does to lists, where a value that is no
sequence counts as a list of itself alone. Concatenation is associative on the kinds that it takes,
and refuses the others; pushing appends one item, whatever its kind; and a sequence that is not
empty is its head before its tail (`Native.sequences_obey_append`).

The arguments of the forms are expressions that have a value (`Needs`), so that a form can stand in
another.
-/

namespace MiniLisp

/-- A value of a kind that concatenation takes. -/
def Value.Joins (v : Value) : Prop := v.kind ∉ [Kind.function, Kind.quoted, Kind.unit]

instance (v : Value) : Decidable v.Joins := inferInstanceAs (Decidable (_ ∉ _))

namespace Native

variable {scope : Scope} {limit need more : Nat} {e f a b c v : Value} {items : List Value}

/-! ## What the natives give -/

theorem refusesConcat_eq_true_iff : refusesConcat v.kind = true ↔ ¬ v.Joins := by
  unfold Value.Joins
  cases v.kind <;> decide

theorem joins_sequence (items : List Value) : (Value.sequence items).Joins := by
  have hkind : Kind.sequence ∉ [Kind.function, Kind.quoted, Kind.unit] := by decide
  exact hkind

theorem call_concat (ha : a.Joins) (hb : b.Joins) (ev : Evaluator) (s : Scope) (name : Name) :
    Native.concat.call ev s name [a, b] =
      pure (s, .sequence (concatPart a ++ concatPart b)) := by
  have htakes : ¬ (refusesConcat a.kind || refusesConcat b.kind) = true := by
    rw [Bool.or_eq_true, refusesConcat_eq_true_iff, refusesConcat_eq_true_iff]
    exact not_or.2 ⟨not_not.2 ha, not_not.2 hb⟩
  simp only [call, procedure, joined_eq]
  exact if_neg htakes

theorem call_concat_of_not_joins (h : ¬ a.Joins ∨ ¬ b.Joins) (ev : Evaluator) (s : Scope)
    (name : Name) :
    Native.concat.call ev s name [a, b] = Run.fail (.cannotConcat a.kind b.kind) := by
  have hrefuses : (refusesConcat a.kind || refusesConcat b.kind) = true := by
    rw [Bool.or_eq_true, refusesConcat_eq_true_iff, refusesConcat_eq_true_iff]
    exact h
  simp only [call, procedure]
  exact if_pos hrefuses

theorem call_length (items : List Value) (ev : Evaluator) (s : Scope) (name : Name) :
    Native.length.call ev s name [.sequence items] =
      if Number.InRange items.length then pure (s, .number items.length)
      else Run.fail (.overflow s.label.text items.length) := by
  have hargument : Run.ofExcept (coerceArgument Value.toSequence s.label 0 (.sequence items)) =
      pure items := rfl
  simp only [call, procedure, hargument, pure_bind, Value.checkRange]
  split <;> rfl

/-- A sequence is no item of itself. -/
theorem concatPart_eq_singleton_iff : concatPart v = [v] ↔ v.kind ≠ .sequence := by
  cases v with
  | sequence items =>
    have hne : items ≠ [.sequence items] := by
      intro h
      have hsize := congrArg sizeOf h
      simp only [List.cons.sizeOf_spec, Value.sequence.sizeOf_spec] at hsize
      omega
    exact iff_of_false hne fun h => h rfl
  | unit | boolean | number | text | symbol | quoted | function => exact iff_of_true rfl nofun

/-! ## Forms -/

def concatName : Name := { text := "concat" }

def pushName : Name := { text := "push" }

def headName : Name := { text := "head" }

def tailName : Name := { text := "tail" }

def lengthName : Name := { text := "len" }

def concatForm (e f : Value) : Value := callForm concatName [e, f]

def pushForm (e f : Value) : Value := callForm pushName [e, f]

def headForm (e : Value) : Value := callForm headName [e]

def tailForm (e : Value) : Value := callForm tailName [e]

def lengthForm (e : Value) : Value := callForm lengthName [e]

theorem needs_concatForm (he : Needs need scope e a) (hf : Needs more scope f b) (ha : a.Joins)
    (hb : b.Joins) :
    Needs (max need more + 1) scope (concatForm e f)
      (.sequence (concatPart a ++ concatPart b)) :=
  .native rfl (.two he hf) fun ev s => call_concat ha hb ev s concatName

theorem needs_pushForm (he : Needs need scope e (.sequence items)) (hf : Needs more scope f v) :
    Needs (max need more + 1) scope (pushForm e f) (.sequence (items ++ [v])) :=
  .native rfl (.two he hf) fun _ _ => rfl

theorem evaluateWithin_concatForm_of_not_joins (he : Needs need scope e a)
    (hf : Needs more scope f b) (h : ¬ a.Joins ∨ ¬ b.Joins) (hlimit : max need more < limit) :
    evaluateWithin limit scope (concatForm e f) = Run.fail (.cannotConcat a.kind b.kind) :=
  NeedsEach.evaluateWithin_fail (.two he hf) rfl
    (fun ev s _ => call_concat_of_not_joins h ev s concatName) rfl hlimit

/-- A native that gives a part of a sequence, and refuses one that is empty. -/
structure TakesApart (native : Native) (name : Name) (part : Value → List Value → Value) :
    Prop where
  named : ofName? name.text = some native
  nil (ev : Evaluator) (s : Scope) :
    native.call ev s name [.sequence []] = Run.fail (.emptySequence s.label.text)
  cons (ev : Evaluator) (s : Scope) (v : Value) (items : List Value) :
    native.call ev s name [.sequence (v :: items)] = pure (s, part v items)

theorem takesApart_head : TakesApart .head headName fun first _ => first :=
  ⟨rfl, fun _ _ => rfl, fun _ _ _ _ => rfl⟩

theorem takesApart_tail : TakesApart .tail tailName fun _ others => .sequence others :=
  ⟨rfl, fun _ _ => rfl, fun _ _ _ _ => rfl⟩

namespace TakesApart

variable {native : Native} {name : Name} {part : Value → List Value → Value}

theorem evaluateWithin_cons (h : TakesApart native name part)
    (he : Needs need scope e (.sequence (v :: items))) (hlimit : need < limit) :
    evaluateWithin limit scope (callForm name [e]) = pure (scope, part v items) :=
  ((Needs.native h.named (.one he) fun ev s => h.cons ev s v items).evaluateWithin limit).1 hlimit

theorem evaluateWithin_fails_iff (h : TakesApart native name part)
    (he : Needs need scope e (.sequence items)) (hlimit : need < limit) :
    evaluateWithin limit scope (callForm name [e]) = Run.fail (.emptySequence name.text) ↔
      items = [] := by
  cases items with
  | nil =>
    refine iff_of_true (NeedsEach.evaluateWithin_fail (.one he) h.named (fun ev s hlabel => ?_) rfl
      hlimit) rfl
    rw [h.nil, hlabel]
  | cons v items =>
    rw [h.evaluateWithin_cons he hlimit]
    exact iff_of_false nofun nofun

end TakesApart

/-- The run that ends in a length. No list that a memory holds has one out of range. -/
def counted (scope : Scope) (n : Nat) : Run (Scope × Value) :=
  if Number.InRange n then pure (scope, .number n) else Run.fail (.overflow lengthName.text n)

theorem evaluateWithin_lengthForm (he : Needs need scope e (.sequence items))
    (hlimit : need < limit) :
    evaluateWithin limit scope (lengthForm e) = counted scope items.length := by
  unfold counted
  by_cases hrange : Number.InRange items.length
  · have hlength : Needs (need + 1) scope (lengthForm e) (.number items.length) := by
      refine .native rfl (.one he) fun ev s => ?_
      rw [call_length, if_pos hrange]
    rw [if_pos hrange]
    exact (hlength.evaluateWithin limit).1 hlimit
  · rw [if_neg hrange]
    refine NeedsEach.evaluateWithin_fail (.one he) rfl (fun ev s hlabel => ?_) rfl hlimit
    rw [call_length, if_neg hrange, hlabel]

/-! ## The laws -/

theorem concat_run (scope : Scope) (limit : Nat) (ha : a.Joins) (hb : b.Joins) :
    evaluateWithin (limit + 1) scope (concatForm (.quoted a) (.quoted b)) =
      pure (scope, .sequence (concatPart a ++ concatPart b)) :=
  ((needs_concatForm (.quoted a) (.quoted b) ha hb).evaluateWithin _).1 (by omega)

theorem concat_fails_iff (scope : Scope) (limit : Nat) (a b : Value) :
    evaluateWithin (limit + 1) scope (concatForm (.quoted a) (.quoted b)) =
      Run.fail (.cannotConcat a.kind b.kind) ↔ ¬ a.Joins ∨ ¬ b.Joins := by
  refine ⟨fun h => ?_, fun h =>
    evaluateWithin_concatForm_of_not_joins (.quoted a) (.quoted b) h (by omega)⟩
  by_contra hjoins
  obtain ⟨ha, hb⟩ := not_or.1 hjoins
  rw [concat_run scope limit (not_not.1 ha) (not_not.1 hb)] at h
  cases h

theorem concat_left_run (scope : Scope) (limit : Nat) (ha : a.Joins) (hb : b.Joins)
    (hc : c.Joins) :
    evaluateWithin (limit + 2) scope
        (concatForm (concatForm (.quoted a) (.quoted b)) (.quoted c)) =
      pure (scope, .sequence (concatPart a ++ concatPart b ++ concatPart c)) :=
  ((needs_concatForm (needs_concatForm (.quoted a) (.quoted b) ha hb) (.quoted c)
    (joins_sequence _) hc).evaluateWithin _).1 (by omega)

theorem concat_right_run (scope : Scope) (limit : Nat) (ha : a.Joins) (hb : b.Joins)
    (hc : c.Joins) :
    evaluateWithin (limit + 2) scope
        (concatForm (.quoted a) (concatForm (.quoted b) (.quoted c))) =
      pure (scope, .sequence (concatPart a ++ (concatPart b ++ concatPart c))) :=
  ((needs_concatForm (.quoted a) (needs_concatForm (.quoted b) (.quoted c) hb hc) ha
    (joins_sequence _)).evaluateWithin _).1 (by omega)

theorem push_run (scope : Scope) (limit : Nat) (items : List Value) (v : Value) :
    evaluateWithin (limit + 1) scope (pushForm (.quoted (.sequence items)) (.quoted v)) =
      pure (scope, .sequence (items ++ [v])) :=
  ((needs_pushForm (.quoted (.sequence items)) (.quoted v)).evaluateWithin _).1 (by omega)

/-- Pushing is concatenation only for the values that concatenation takes as one item. -/
theorem push_run_eq_concat_run_iff (scope : Scope) (limit : Nat) (items : List Value) (v : Value) :
    evaluateWithin (limit + 1) scope (pushForm (.quoted (.sequence items)) (.quoted v)) =
      evaluateWithin (limit + 1) scope (concatForm (.quoted (.sequence items)) (.quoted v)) ↔
      v.Joins ∧ v.kind ≠ .sequence := by
  rw [push_run]
  by_cases hv : v.Joins
  · have hparts : concatPart (.sequence items) = items := rfl
    rw [concat_run scope limit (joins_sequence items) hv, hparts, ← concatPart_eq_singleton_iff]
    simp only [hv, true_and, Run.pure_eq, Run.mk.injEq, Except.ok.injEq, Prod.mk.injEq,
      Value.sequence.injEq, List.append_cancel_left_eq]
    exact eq_comm
  · rw [(concat_fails_iff scope limit (.sequence items) v).2 (.inr hv)]
    exact iff_of_false nofun fun h => hv h.1

/-- The natives on sequences obey the laws of append, under any limit that lets their forms nest. -/
theorem sequences_obey_append (scope : Scope) (limit : Nat) :
    (∀ a b : Value,
      (evaluateWithin (limit + 1) scope (concatForm (.quoted a) (.quoted b)) =
        Run.fail (.cannotConcat a.kind b.kind) ↔ ¬ a.Joins ∨ ¬ b.Joins) ∧
      (a.Joins → b.Joins →
        evaluateWithin (limit + 1) scope (concatForm (.quoted a) (.quoted b)) =
          pure (scope, .sequence (concatPart a ++ concatPart b)) ∧
        evaluateWithin (limit + 2) scope (lengthForm (concatForm (.quoted a) (.quoted b))) =
          counted scope ((concatPart a).length + (concatPart b).length))) ∧
    (∀ a b c : Value, a.Joins → b.Joins → c.Joins →
      evaluateWithin (limit + 2) scope
          (concatForm (concatForm (.quoted a) (.quoted b)) (.quoted c)) =
        evaluateWithin (limit + 2) scope
          (concatForm (.quoted a) (concatForm (.quoted b) (.quoted c))) ∧
      evaluateWithin (limit + 2) scope
          (concatForm (.quoted a) (concatForm (.quoted b) (.quoted c))) =
        pure (scope, .sequence (concatPart a ++ (concatPart b ++ concatPart c)))) ∧
    (∀ (items : List Value) (v : Value),
      evaluateWithin (limit + 1) scope (pushForm (.quoted (.sequence items)) (.quoted v)) =
        pure (scope, .sequence (items ++ [v])) ∧
      evaluateWithin (limit + 2) scope
          (lengthForm (pushForm (.quoted (.sequence items)) (.quoted v))) =
        counted scope (items.length + 1) ∧
      (evaluateWithin (limit + 1) scope (pushForm (.quoted (.sequence items)) (.quoted v)) =
          evaluateWithin (limit + 1) scope (concatForm (.quoted (.sequence items)) (.quoted v)) ↔
        v.Joins ∧ v.kind ≠ .sequence)) ∧
    ∀ items : List Value,
      (evaluateWithin (limit + 1) scope (headForm (.quoted (.sequence items))) =
        Run.fail (.emptySequence "head") ↔ items = []) ∧
      (evaluateWithin (limit + 1) scope (tailForm (.quoted (.sequence items))) =
        Run.fail (.emptySequence "tail") ↔ items = []) ∧
      (items ≠ [] → ∃ first others, first :: others = items ∧
        evaluateWithin (limit + 1) scope (headForm (.quoted (.sequence items))) =
          pure (scope, first) ∧
        evaluateWithin (limit + 1) scope (tailForm (.quoted (.sequence items))) =
          pure (scope, .sequence others)) := by
  refine ⟨fun a b => ⟨concat_fails_iff scope limit a b, fun ha hb =>
    ⟨concat_run scope limit ha hb, ?_⟩⟩, fun a b c ha hb hc => ?_, fun items v =>
    ⟨push_run scope limit items v, ?_, push_run_eq_concat_run_iff scope limit items v⟩,
    fun items => ⟨?_, ?_, fun hne => ?_⟩⟩
  · rw [evaluateWithin_lengthForm (needs_concatForm (.quoted a) (.quoted b) ha hb) (by omega),
      List.length_append]
  · refine ⟨?_, concat_right_run scope limit ha hb hc⟩
    rw [concat_left_run scope limit ha hb hc, concat_right_run scope limit ha hb hc,
      List.append_assoc]
  · rw [evaluateWithin_lengthForm (needs_pushForm (.quoted (.sequence items)) (.quoted v))
      (by omega), List.length_append]
    rfl
  · exact takesApart_head.evaluateWithin_fails_iff (.quoted (.sequence items)) (by omega)
  · exact takesApart_tail.evaluateWithin_fails_iff (.quoted (.sequence items)) (by omega)
  · obtain ⟨first, others, rfl⟩ := List.exists_cons_of_ne_nil hne
    exact ⟨first, others, rfl,
      takesApart_head.evaluateWithin_cons (.quoted (.sequence (first :: others))) (by omega),
      takesApart_tail.evaluateWithin_cons (.quoted (.sequence (first :: others))) (by omega)⟩

theorem sequences_obey_append_mixed :
    (Value.number 1).Joins ∧ (Value.sequence [.unit]).Joins ∧ (Value.boolean true).Joins ∧
    evaluateWithin 2 .initial (concatForm
        (concatForm (.quoted (.number 1)) (.quoted (.sequence [.unit])))
        (.quoted (.boolean true))) =
      pure (.initial, .sequence [.number 1, .unit, .boolean true]) ∧
    [Value.unit] ≠ [] ∧
    evaluateWithin 1 .initial (headForm (.quoted (.sequence [.unit]))) =
      pure (.initial, .unit) := by
  have hjoins : (Value.number 1).Joins ∧ (Value.sequence [.unit]).Joins ∧
      (Value.boolean true).Joins := by decide
  obtain ⟨ha, hb, hc⟩ := hjoins
  obtain ⟨hassoc, hright⟩ := (sequences_obey_append .initial 0).2.1 _ _ _ ha hb hc
  have hne : [Value.unit] ≠ [] := List.cons_ne_nil _ _
  obtain ⟨first, others, hitems, hhead, -⟩ :=
    ((sequences_obey_append .initial 0).2.2.2 _).2.2 hne
  cases hitems
  exact ⟨ha, hb, hc, hassoc.trans hright, hne, hhead⟩

end Native

end MiniLisp
