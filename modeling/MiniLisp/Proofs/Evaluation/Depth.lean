import MiniLisp.Evaluation
import MiniLisp.Settings

/-!
# More depth never changes an answer

With a larger budget, a run that was not out of depth stays as it is, and one that was prints what
it had printed and perhaps more: it is extended (`Run.Extends`). Evaluation spends its budget only
where it enters a list. So everything between two lists is proved for any two evaluators of which
one extends the other, and one induction on the budget carries the rest (`evaluate_extends`).
-/

namespace MiniLisp

namespace Run

variable {α β : Type} {x y : Run α}

def OutOfDepth (x : Run α) : Prop :=
  ∃ context limit, x.result = .error (.depthExceeded context limit)

theorem outOfDepth_error_iff {out : List String} {e : Error} :
    (⟨out, .error e⟩ : Run α).OutOfDepth ↔ ∃ context limit, e = .depthExceeded context limit := by
  simp only [OutOfDepth, Except.error.injEq]

theorem not_outOfDepth_of_ok {a : α} (h : x.result = .ok a) : ¬ x.OutOfDepth := by
  rintro ⟨context, limit, herror⟩
  rw [h] at herror
  cases herror

/-- What a larger budget may make of a run. -/
inductive Extends (y x : Run α) : Prop
  | same (h : y = x)
  | further (hx : x.OutOfDepth) (hout : x.out <+: y.out)

theorem Extends.refl (x : Run α) : x.Extends x := .same rfl

theorem Extends.eq (h : y.Extends x) (hx : ¬ x.OutOfDepth) : y = x := by
  cases h with
  | same h => exact h
  | further hx' _ => exact absurd hx' hx

theorem Extends.out (h : y.Extends x) : x.out <+: y.out := by
  cases h with
  | same h =>
    subst h
    exact List.prefix_refl y.out
  | further _ hout => exact hout

theorem out_bind (x : Run α) (f : α → Run β) : x.out <+: (x >>= f).out := by
  rcases x with ⟨out, _ | a⟩
  · exact List.prefix_refl out
  · exact List.prefix_append out (f a).out

theorem OutOfDepth.bind (h : x.OutOfDepth) (f : α → Run β) :
    (x >>= f).OutOfDepth ∧ (x >>= f).out = x.out := by
  obtain ⟨context, limit, hx⟩ := h
  rcases x with ⟨out, result⟩
  simp only at hx
  rw [hx, bind_error]
  exact ⟨⟨context, limit, rfl⟩, rfl⟩

theorem Extends.bind {f g : α → Run β} (h : y.Extends x) (hf : ∀ a, (g a).Extends (f a)) :
    (y >>= g).Extends (x >>= f) := by
  cases h with
  | same h =>
    rw [h]
    rcases x with ⟨out, e | a⟩
    · exact .same rfl
    · cases hf a with
      | same ha => exact .same (by rw [bind_ok, bind_ok, ha])
      | further ha hout =>
        rw [bind_ok, bind_ok]
        exact .further ha ((List.prefix_append_right_inj out).2 hout)
  | further hx hout =>
    -- The second part of the shorter run is never reached, that of the longer one may print.
    have hbind := hx.bind f
    refine .further hbind.1 ?_
    rw [hbind.2]
    exact hout.trans (out_bind y g)

end Run

/-! ## Between two lists -/

def Evaluator.Extends (ev' ev : Evaluator) : Prop :=
  ∀ scope e, (ev' scope e).Extends (ev scope e)

/-- The same number of values, and a run that is extended whatever these are. -/
inductive Procedure.Extends : Procedure → Procedure → Prop
  | nullary {run' run} (h : run'.Extends run) : Extends (.nullary run') (.nullary run)
  | unary {run' run} (h : ∀ a, (run' a).Extends (run a)) : Extends (.unary run') (.unary run)
  | binary {run' run} (h : ∀ a b, (run' a b).Extends (run a b)) :
      Extends (.binary run') (.binary run)
  | ternary {run' run} (h : ∀ a b c, (run' a b c).Extends (run a b c)) :
      Extends (.ternary run') (.ternary run)

theorem Procedure.Extends.refl (p : Procedure) : p.Extends p := by
  cases p with
  | nullary run => exact .nullary (.refl run)
  | unary run => exact .unary fun a => .refl (run a)
  | binary run => exact .binary fun a b => .refl (run a b)
  | ternary run => exact .ternary fun a b c => .refl (run a b c)

section

variable {ev' ev : Evaluator} (h : ev'.Extends ev)
include h

theorem evaluateEach_extends (es : List Value) (scope : Scope) :
    (evaluateEach ev' scope es).Extends (evaluateEach ev scope es) := by
  induction es generalizing scope with
  | nil => exact .refl _
  | cons e es ih =>
    unfold evaluateEach
    refine (h scope e).bind fun ⟨after, v⟩ => ?_
    exact (ih after).bind fun _ => .refl _

theorem Function.apply_extends (f : Function) (scope : Scope) (arguments : List Value) :
    (f.apply ev' scope arguments).Extends (f.apply ev scope arguments) := by
  unfold Function.apply
  by_cases hfew : (f.applied ++ arguments).length < f.arity
  · simp only [if_pos hfew]
    exact .refl _
  by_cases hmany : f.arity < (f.applied ++ arguments).length
  · simp only [if_neg hfew, if_pos hmany]
    exact .refl _
  · simp only [if_neg hfew, if_neg hmany]
    exact (h _ f.body).bind fun _ => .refl _

theorem Native.foldItems_extends (operation : Value) (items : List Value) (scope : Scope)
    (accumulator : Value) :
    (foldItems ev' operation scope accumulator items).Extends
      (foldItems ev operation scope accumulator items) := by
  induction items generalizing scope accumulator with
  | nil => exact .refl _
  | cons item items ih =>
    unfold foldItems
    exact (h scope _).bind fun ⟨after, v⟩ => ih after v

-- Only `eval`, `fold` and `map` evaluate anything; the other natives are the same under both.
theorem Native.procedure_extends (native : Native) (scope : Scope) :
    (native.procedure ev' scope).Extends (native.procedure ev scope) := by
  cases native with
  | eval => exact .unary fun v => h scope v
  | fold =>
    exact .ternary fun operation accumulator v =>
      (Run.Extends.refl _).bind fun items => foldItems_extends h operation items scope accumulator
  | map =>
    refine .binary fun operation v => (Run.Extends.refl _).bind fun items => ?_
    exact (evaluateEach_extends h _ scope).bind fun _ => .refl _
  | _ => exact .refl _

theorem Native.call_extends (native : Native) (scope : Scope) (name : Name)
    (arguments : List Value) :
    (native.call ev' scope name arguments).Extends (native.call ev scope name arguments) := by
  unfold call
  have hp := native.procedure_extends h scope
  generalize native.procedure ev' scope = p' at hp
  generalize native.procedure ev scope = p at hp
  cases hp with
  | nullary hrun =>
    rcases arguments with _ | ⟨a, arguments⟩
    · exact hrun
    · exact .refl _
  | unary hrun =>
    rcases arguments with _ | ⟨a, _ | ⟨b, arguments⟩⟩
    · exact .refl _
    · exact hrun a
    · exact .refl _
  | binary hrun =>
    rcases arguments with _ | ⟨a, _ | ⟨b, _ | ⟨c, arguments⟩⟩⟩
    · exact .refl _
    · exact .refl _
    · exact hrun a b
    · exact .refl _
  | ternary hrun =>
    rcases arguments with _ | ⟨a, _ | ⟨b, _ | ⟨c, _ | ⟨d, arguments⟩⟩⟩⟩
    · exact .refl _
    · exact .refl _
    · exact .refl _
    · exact hrun a b c
    · exact .refl _

theorem SpecialForm.run_extends (form : SpecialForm) (scope : Scope) (arguments : List Value) :
    (form.run ev' scope arguments).Extends (form.run ev scope arguments) := by
  unfold SpecialForm.run
  split
  · refine (Run.Extends.refl _).bind fun name => ?_
    exact (h scope _).bind fun _ => .refl _
  · exact .refl _
  · exact .refl _
  · refine (h scope _).bind fun ⟨after, v⟩ => (Run.Extends.refl _).bind fun b => ?_
    cases b with
    | true => exact h after _
    | false => exact h after _
  · exact .refl _

theorem evaluateNamed_extends (scope : Scope) (name : Name) (tail : List Value) :
    (evaluateNamed ev' scope name tail).Extends (evaluateNamed ev scope name tail) := by
  unfold evaluateNamed
  split
  · exact SpecialForm.run_extends h _ scope tail
  -- Whether the name is `list`, a native or bound is decided after the arguments are evaluated.
  refine (evaluateEach_extends h tail scope).bind fun ⟨after, arguments⟩ => ?_
  by_cases hlist : name.text = listConstructor
  · simp only [if_pos hlist]
    exact .refl _
  simp only [if_neg hlist]
  split
  · exact Native.call_extends h _ after name arguments
  split
  · exact .refl _
  split
  · exact Function.apply_extends h _ after arguments
  · exact .refl _

theorem evaluateHead_extends (scope : Scope) (head : Value) :
    (evaluateHead ev' scope head).Extends (evaluateHead ev scope head) := by
  unfold evaluateHead
  split
  · exact h scope _
  · exact .refl _

theorem evaluateForm_extends (scope : Scope) (items : List Value) :
    (evaluateForm ev' scope items).Extends (evaluateForm ev scope items) := by
  unfold evaluateForm
  split
  · exact .refl _
  · exact evaluateNamed_extends h _ _ _
  · refine (evaluateHead_extends h scope _).bind fun ⟨after, callee⟩ => ?_
    simp only
    split
    · refine (evaluateEach_extends h _ _).bind fun ⟨last, arguments⟩ => ?_
      exact Function.apply_extends h _ last arguments
    · exact .refl _

end

/-! ## The budget -/

-- Only lists spend the budget.
theorem evaluate_eq_of_ne_sequence {e : Value} (he : ¬ ∃ items, e = .sequence items)
    (b b' : Nat) (scope : Scope) : evaluate b scope e = evaluate b' scope e := by
  cases e with
  | sequence items => exact absurd ⟨items, rfl⟩ he
  | _ => simp only [evaluate]

theorem evaluate_extends {b b' : Nat} (h : b ≤ b') : (evaluate b').Extends (evaluate b) := by
  induction b generalizing b' with
  | zero =>
    intro scope e
    by_cases he : ∃ items, e = .sequence items
    · obtain ⟨items, rfl⟩ := he
      unfold evaluate
      -- With nothing left to spend a list fails at once, before it prints anything.
      exact .further ⟨scope.label.text, 0, rfl⟩ List.nil_prefix
    · exact .same (evaluate_eq_of_ne_sequence he b' 0 scope)
  | succ b ih =>
    intro scope e
    by_cases he : ∃ items, e = .sequence items
    · obtain ⟨items, rfl⟩ := he
      obtain ⟨c, rfl⟩ : ∃ c, b' = c + 1 := ⟨b' - 1, by omega⟩
      unfold evaluate
      -- Either budget pays for the list, and the smaller one stays the smaller.
      have hc : b ≤ c := by omega
      exact (evaluateForm_extends (ih hc) scope items).bind fun _ => .refl _
    · exact .same (evaluate_eq_of_ne_sequence he b' (b + 1) scope)

/-! ## The limit -/

theorem Run.mapError_ok {α : Type} (f : Error → Error) (out : List String) (a : α) :
    (⟨out, .ok a⟩ : Run α).mapError f = ⟨out, .ok a⟩ := rfl

theorem Run.mapError_error {α : Type} (f : Error → Error) (out : List String) (e : Error) :
    (⟨out, .error e⟩ : Run α).mapError f = ⟨out, .error (f e)⟩ := rfl

theorem Run.mapError_result_eq_ok {α : Type} {f : Error → Error} {x : Run α} {a : α} :
    (x.mapError f).result = .ok a ↔ x.result = .ok a := by
  rcases x with ⟨out, e | b⟩
  · rw [mapError_error]
    exact ⟨nofun, nofun⟩
  · rw [mapError_ok]

theorem evaluateWithin_eq_depthExceeded {limit n : Nat} {scope : Scope} {e : Value}
    {context : String}
    (h : (evaluateWithin limit scope e).result = .error (.depthExceeded context n)) :
    n = limit := by
  unfold evaluateWithin at h
  rcases hr : evaluate limit scope e with ⟨out, error | a⟩
  · rw [hr, Run.mapError_error] at h
    -- Naming the limit makes no other error one about the depth.
    cases error <;> cases h
    rfl
  · rw [hr, Run.mapError_ok] at h
    cases h

theorem outOfDepth_evaluateWithin {limit : Nat} {scope : Scope} {e : Value}
    (h : (evaluate limit scope e).OutOfDepth) : (evaluateWithin limit scope e).OutOfDepth := by
  obtain ⟨context, n, hn⟩ := h
  unfold evaluateWithin
  rcases hr : evaluate limit scope e with ⟨out, result⟩
  rw [hr] at hn
  change result = _ at hn
  rw [hn, Run.mapError_error]
  exact ⟨context, limit, rfl⟩

-- Naming the limit changes nothing where the depth sufficed.
theorem evaluateWithin_eq_evaluate {limit : Nat} {scope : Scope} {e : Value}
    (h : ¬ (evaluate limit scope e).OutOfDepth) :
    evaluateWithin limit scope e = evaluate limit scope e := by
  unfold evaluateWithin
  rcases hr : evaluate limit scope e with ⟨out, error | a⟩
  · rw [hr] at h
    have hkeep : error.withLimit limit = error := by
      cases error with
      | depthExceeded context n => exact absurd ⟨context, n, rfl⟩ h
      | _ => rfl
    rw [Run.mapError_error, hkeep]
  · rw [Run.mapError_ok]

-- With enough depth there is one run, whatever the limit.
theorem evaluateWithin_eq_deeper {limit budget : Nat} (hlimit : limit ≤ budget) {scope : Scope}
    {e : Value} (h : ¬ (evaluateWithin limit scope e).OutOfDepth) :
    evaluateWithin limit scope e = evaluate budget scope e := by
  have hdepth : ¬ (evaluate limit scope e).OutOfDepth := fun h' => h (outOfDepth_evaluateWithin h')
  rw [evaluateWithin_eq_evaluate hdepth, (evaluate_extends hlimit scope e).eq hdepth]

theorem Settings.readMaxDepth_pos [Host] (raw : Option String) : 0 < readMaxDepth raw := by
  unfold readMaxDepth
  split
  · split
    · omega
    · decide
  · decide

/-- Raising the depth never changes an answer: a run that is not out of depth is the same under any
larger budget, and one that is has printed what longer ones print first. So the limits that suffice
for an expression are all those above some limit, and give the same run; where a limit does not
suffice, the error names it, and it is positive as every setting is. -/
theorem more_depth_same_answer [Host] :
    (∀ (b b' : Nat) (scope : Scope) (e : Value), b ≤ b' →
      (¬ (evaluate b scope e).OutOfDepth → evaluate b' scope e = evaluate b scope e) ∧
      ((evaluate b scope e).OutOfDepth →
        (evaluate b scope e).out <+: (evaluate b' scope e).out)) ∧
    (∀ (limit limit' : Nat) (scope : Scope) (e : Value), limit ≤ limit' →
      ¬ (evaluateWithin limit scope e).OutOfDepth →
        evaluateWithin limit' scope e = evaluateWithin limit scope e) ∧
    (∀ (limit n : Nat) (scope : Scope) (e : Value) (context : String),
      (evaluateWithin limit scope e).result = .error (.depthExceeded context n) → n = limit) ∧
    ∀ raw : Option String, 0 < Settings.readMaxDepth raw := by
  refine ⟨fun b b' scope e hb => ?_, fun limit limit' scope e hlimit hdepth => ?_,
    fun limit n scope e context hn => evaluateWithin_eq_depthExceeded hn,
    Settings.readMaxDepth_pos⟩
  · have hext : (evaluate b' scope e).Extends (evaluate b scope e) := evaluate_extends hb scope e
    exact ⟨hext.eq, fun _ => hext.out⟩
  · have hsmall : ¬ (evaluate limit scope e).OutOfDepth := fun h =>
      hdepth (outOfDepth_evaluateWithin h)
    have heq : evaluate limit' scope e = evaluate limit scope e :=
      (evaluate_extends hlimit scope e).eq hsmall
    have hlarge : ¬ (evaluate limit' scope e).OutOfDepth := by
      rw [heq]
      exact hsmall
    rw [evaluateWithin_eq_evaluate hsmall, evaluateWithin_eq_evaluate hlarge, heq]

theorem more_depth_same_answer_printing :
    ∃ e : Value, (evaluate 2 Scope.initial e).OutOfDepth ∧
      ["a"] <+: (evaluate 1000 Scope.initial e).out ∧
      evaluateWithin 1000 Scope.initial e = evaluateWithin 3 Scope.initial e ∧
      (evaluateWithin 3 Scope.initial e).result =
        .ok (Scope.initial, .sequence [.unit, .sequence [.sequence []]]) := by
  let e : Value := .sequence [.symbol ⟨"list", by decide⟩,
    .sequence [.symbol ⟨"print", by decide⟩, .text "a"],
    .sequence [.symbol ⟨"list", by decide⟩, .sequence []]]
  have hdeep : (evaluate 2 Scope.initial e).OutOfDepth := ⟨"list", 0, rfl⟩
  have hout : (evaluate 2 Scope.initial e).out = ["a"] := rfl
  have hok : (evaluateWithin 3 Scope.initial e).result =
      .ok (Scope.initial, .sequence [.unit, .sequence [.sequence []]]) := rfl
  have hshallow : ¬ (evaluateWithin 3 Scope.initial e).OutOfDepth := by
    rintro ⟨context, limit, h⟩
    rw [hok] at h
    cases h
  refine ⟨e, hdeep, ?_, ?_, hok⟩
  · rw [← hout]
    exact (more_depth_same_answer.1 2 1000 Scope.initial e (by decide)).2 hdeep
  · exact more_depth_same_answer.2.1 3 1000 Scope.initial e (by decide) hshallow

end MiniLisp
