import MiniLisp.Proofs.Evaluation.Levels
import MiniLisp.Proofs.Evaluation.Nesting
import MiniLisp.Proofs.Evaluation.Origin

/-!
# Depth that the text shows

Code that calls no function asks only for the evaluation of its own parts (`CallFree.of_asks`), so
the levels that its text nests are enough for it, in every scope. Code that only makes lists
evaluates all its parts, so it needs exactly as many levels as its text nests
(`ListExpression.exists_needs`).
-/

namespace MiniLisp

/-! ## The depth of a text -/

namespace Value

mutual

/-- How deep lists are nested in an expression. What is quoted does not count. -/
def depth : Value → Nat
  | .sequence items => depthEach items + 1
  | _ => 0

/-- The greatest depth in a row of expressions. -/
def depthEach : List Value → Nat
  | [] => 0
  | e :: es => max (depth e) (depthEach es)

end

theorem depth_le_depthEach {e : Value} {es : List Value} (h : e ∈ es) : e.depth ≤ depthEach es := by
  induction h with
  | head es => exact Nat.le_max_left _ _
  | tail e' _ ih => exact Nat.le_trans ih (Nat.le_max_right _ _)

theorem depth_of_ne_sequence {e : Value} (h : ¬ ∃ items, e = sequence items) : e.depth = 0 := by
  cases e with
  | sequence items => exact absurd ⟨items, rfl⟩ h
  | _ => rfl

theorem depth_sequence (items : List Value) : (sequence items).depth = depthEach items + 1 := by
  rw [depth]

theorem depth_callForm (name : Name) (es : List Value) :
    (callForm name es).depth = depthEach es + 1 := by
  have hname : (symbol name).depth = 0 := rfl
  rw [callForm, depth_sequence, depthEach, hname, Nat.zero_max]

end Value

/-! ## Code that calls no function -/

/-- At the head of a form such a name calls no function: it means `list`, a special form, or a
native that evaluates no code. -/
inductive Name.CallsNoFunction (name : Name) : Prop
  | list (h : name.text = listConstructor)
  | special {form : SpecialForm} (h : SpecialForm.ofName? name.text = some form)
  | native {native : Native} (h : Native.ofName? name.text = some native)
      (hcode : native.evaluatesCode = false)

/-- Code in which every list is empty or begins with a name that calls no function. Of the form of a
function nothing is evaluated, so its parameters and its body may be of any kind. -/
inductive CallFree : Value → Prop
  | other {e : Value} (h : ¬ ∃ items, e = .sequence items) : CallFree e
  | empty : CallFree (.sequence [])
  | form {name : Name} {es : List Value} (hname : name.CallsNoFunction)
      (hes : ∀ e ∈ es, CallFree e) : CallFree (.sequence (.symbol name :: es))
  | function {name : Name} {form : SpecialForm} {es : List Value}
      (hname : SpecialForm.ofName? name.text = some form)
      (hform : form = .function ∨ form = .defineFunction) :
      CallFree (.sequence (.symbol name :: es))

theorem Name.CallsNoFunction.not_isOrdinary {name : Name} (h : name.CallsNoFunction) :
    ¬ name.IsOrdinary := by
  intro hordinary
  cases h with
  | list h => exact hordinary.notList h
  | special h =>
    rw [hordinary.notSpecial] at h
    cases h
  | native h =>
    rw [hordinary.notNative] at h
    cases h

theorem Name.CallsNoFunction.evaluatesCode_eq_false {name : Name} (h : name.CallsNoFunction)
    {native : Native} (hnative : Native.ofName? name.text = some native) :
    native.evaluatesCode = false := by
  obtain ⟨hspecial, hlist⟩ := Native.ofName?_excludes hnative
  cases h with
  | list h => exact absurd h hlist
  | special h =>
    rw [hspecial] at h
    cases h
  | native h hcode =>
    rw [hnative] at h
    cases h
    exact hcode

namespace SpecialForm.Asks

variable {ev : Evaluator} {s t : Scope} {form : SpecialForm} {arguments : List Value} {e : Value}

theorem mem (h : form.Asks ev s arguments t e) : e ∈ arguments := by
  cases h with
  | value => simp only [List.mem_cons, true_or, or_true]
  | test => exact List.mem_cons_self
  | @branch test yes no _ b h =>
    cases b with
    | true => simp only [if_true, List.mem_cons, true_or, or_true]
    | false => simp only [Bool.false_eq_true, if_false, List.mem_cons, true_or, or_true]

theorem not_function (h : form.Asks ev s arguments t e) :
    ¬ (form = .function ∨ form = .defineFunction) := by
  cases h <;> simp only [reduceCtorEq, or_self, not_false_eq_true]

end SpecialForm.Asks

theorem RowAsks.mem {ev : Evaluator} {s t : Scope} {es : List Value} {e : Value}
    (h : RowAsks ev s es t e) : e ∈ es := by
  obtain ⟨before, after, -, rfl, -⟩ := h
  exact List.mem_append_right before List.mem_cons_self

theorem Native.Asks.evaluatesCode {ev : Evaluator} {s t : Scope} {native : Native}
    {vs : List Value} {e : Value} (h : native.Asks ev s vs t e) : native.evaluatesCode = true := by
  cases h <;> rfl

/-- What a form of such code asks for is among its items, and is such code again. -/
theorem CallFree.of_asks {ev : Evaluator} {s t : Scope} {items : List Value} {e : Value}
    (h : CallFree (.sequence items)) (hasks : FormAsks ev s items t e) :
    e ∈ items ∧ CallFree e := by
  cases h with
  | other h => exact absurd ⟨items, rfl⟩ h
  | empty => cases hasks
  | form hname hes =>
    cases hasks with
    | special _ hasks => exact ⟨List.mem_cons_of_mem _ hasks.mem, hes e hasks.mem⟩
    | argument _ hrow => exact ⟨List.mem_cons_of_mem _ hrow.mem, hes e hrow.mem⟩
    | native hnative _ hasks =>
      have hcode := hname.evaluatesCode_eq_false hnative
      rw [hasks.evaluatesCode] at hcode
      cases hcode
    | bound hordinary => exact absurd hordinary hname.not_isOrdinary
    | argumentOf hhead => exact absurd rfl (hhead _)
    | computed hhead => exact absurd rfl (hhead _)
  | function hname hform =>
    cases hasks with
    | special hname' hasks =>
      rw [hname] at hname'
      cases hname'
      exact absurd hform hasks.not_function
    | argument hname' =>
      rw [hname] at hname'
      cases hname'
    | native hnative =>
      rw [(Native.ofName?_excludes hnative).1] at hname
      cases hname
    | bound hordinary =>
      rw [hordinary.notSpecial] at hname
      cases hname
    | argumentOf hhead => exact absurd rfl (hhead _)
    | computed hhead => exact absurd rfl (hhead _)

-- No form runs out of depth by itself: only an expression in it does.
theorem FormRaises.not_depthExceeded {ev : Evaluator} {s : Scope} {items : List Value}
    {context : String} {limit : Nat} : ¬ FormRaises ev s items (.depthExceeded context limit) := by
  intro h
  cases h with
  | special _ h => cases h
  | native _ _ h => cases h
  | bound _ _ _ h => cases h
  | computed _ _ _ h => cases h

theorem CallFree.not_outOfDepth {budget : Nat} {e : Value} (h : CallFree e)
    (hdepth : e.depth ≤ budget) (scope : Scope) : ¬ (evaluate budget scope e).OutOfDepth := by
  rintro ⟨context, limit, hresult⟩
  refine evaluate_fails (Q := fun budget _ e error =>
    CallFree e → e.depth ≤ budget → error ≠ .depthExceeded context limit) ?_ ?_
    budget scope e _ hresult h hdepth rfl
  · intro budget s items t e error hasks hpart hfree hdepth
    obtain ⟨hmem, he⟩ := hfree.of_asks hasks
    rw [Value.depth_sequence] at hdepth
    exact hpart he (Nat.le_trans (Value.depth_le_depthEach hmem) (Nat.le_of_succ_le_succ hdepth))
  · intro budget s e error hraises _ hdepth herror
    subst herror
    cases hraises with
    | depth =>
      rw [Value.depth_sequence] at hdepth
      exact absurd hdepth (Nat.not_succ_le_zero _)
    | form hform => exact hform.not_depthExceeded

/-! ## Code that only makes lists -/

/-- Code that only makes lists, of values that need no evaluation and of what is quoted. -/
inductive ListExpression : Value → Prop
  | constant {e : Value} (hsymbol : ∀ name, e ≠ .symbol name)
      (hlist : ¬ ∃ items, e = .sequence items) : ListExpression e
  | empty : ListExpression (.sequence [])
  | list {es : List Value} (hes : ∀ e ∈ es, ListExpression e) : ListExpression (listForm es)

theorem Needs.exists_of_constant {e : Value} (hsymbol : ∀ name, e ≠ .symbol name)
    (hlist : ¬ ∃ items, e = .sequence items) (scope : Scope) : ∃ v, Needs e.depth scope e v := by
  rw [Value.depth_of_ne_sequence hlist]
  obtain ⟨v, hv⟩ | ⟨name, rfl, -, -⟩ := evaluate_cases_of_ne_sequence hlist 0 scope
  · exact ⟨v, .of_forall fun budget =>
      (evaluate_eq_of_ne_sequence hlist budget 0 scope).trans hv⟩
  · exact absurd rfl (hsymbol name)

theorem NeedsEach.exists_of_forall {scope : Scope} {es : List Value}
    (h : ∀ e ∈ es, ∃ v, Needs e.depth scope e v) :
    ∃ vs, NeedsEach scope (Value.depthEach es) es vs := by
  induction es with
  | nil => exact ⟨[], .nil⟩
  | cons e es ih =>
    obtain ⟨he, hes⟩ := List.forall_mem_cons.1 h
    obtain ⟨v, hv⟩ := he
    obtain ⟨vs, hvs⟩ := ih hes
    exact ⟨v :: vs, .cons hv hvs⟩

theorem ListExpression.exists_needs {e : Value} (h : ListExpression e) (scope : Scope) :
    ∃ v, Needs e.depth scope e v := by
  induction h with
  | constant hsymbol hlist => exact Needs.exists_of_constant hsymbol hlist scope
  | empty => exact ⟨_, .empty⟩
  | @list es _ ih =>
    obtain ⟨vs, hvs⟩ := NeedsEach.exists_of_forall ih
    have hdepth : (listForm es).depth = Value.depthEach es + 1 := Value.depth_callForm listName es
    rw [hdepth]
    exact ⟨.sequence vs, .list rfl hvs⟩

/-! ## Limits -/

/-- In code that calls no function, a limit of at least the depth of the text is never exceeded,
whatever the scope binds. Where the code only makes lists no lower limit will do. -/
theorem depth_of_text_suffices (limit : Nat) (scope : Scope) (e : Value) :
    (CallFree e → e.depth ≤ limit → ¬ (evaluateWithin limit scope e).OutOfDepth) ∧
    (ListExpression e →
      ((∃ after v, (evaluateWithin limit scope e).result = .ok (after, v)) ↔ e.depth ≤ limit)) := by
  constructor
  · intro h hdepth
    have hbudget := h.not_outOfDepth hdepth scope
    rw [evaluateWithin_eq_evaluate hbudget]
    exact hbudget
  · intro h
    obtain ⟨v, hneeds⟩ := h.exists_needs scope
    obtain ⟨henough, hshort⟩ := hneeds.evaluateWithin limit
    constructor
    · rintro ⟨after, w, hresult⟩
      by_contra hdepth
      obtain ⟨context, hfails⟩ := hshort (Nat.lt_of_not_le hdepth)
      rw [hfails] at hresult
      cases hresult
    · intro hdepth
      rw [henough hdepth]
      exact ⟨scope, v, rfl⟩

/-- The branch that is taken binds a function whose body calls its parameter. -/
theorem depth_of_text_suffices_defining :
    ∃ code lists : Value, CallFree code ∧ code.depth = 5 ∧
      ¬ (evaluateWithin 5 Scope.initial code).OutOfDepth ∧ ListExpression lists ∧
      lists.depth = 3 ∧
      (∃ after v, (evaluateWithin 3 Scope.initial lists).result = .ok (after, v)) ∧
      ¬ ∃ after v, (evaluateWithin 2 Scope.initial lists).result = .ok (after, v) := by
  let len : Name := ⟨"len", by decide⟩
  let choose : Name := ⟨"if!", by decide⟩
  let define : Name := ⟨"def!", by decide⟩
  let closure : Name := ⟨"fn!", by decide⟩
  let less : Name := ⟨"<", by decide⟩
  let x : Value := .symbol ⟨"x", by decide⟩
  let other : Value := .quoted (.sequence [.symbol evalName])
  let test : Value := callForm less [callForm len [other], .number 2]
  let definition : Value :=
    callForm define [x, callForm closure [.sequence [x], .sequence [.sequence [x]]]]
  let code : Value := callForm choose [test, definition, .sequence []]
  let lists : Value := listForm [other, .sequence [], listForm [listForm [.boolean true]]]
  have hlength : Native.ofName? len.text = some .length := rfl
  have hless : Native.ofName? less.text = some (.comparison .less) := rfl
  have hdefine : SpecialForm.ofName? define.text = some .define := rfl
  have hclosure : SpecialForm.ofName? closure.text = some .function := rfl
  have hchoose : SpecialForm.ofName? choose.text = some .choose := rfl
  have hlen : CallFree (callForm len [other]) :=
    .form (.native hlength rfl) (by simpa [other] using .other nofun)
  have htest : CallFree test :=
    .form (.native hless rfl) (by simpa using ⟨hlen, .other nofun⟩)
  have hdefinition : CallFree definition :=
    .form (.special hdefine) (by simpa using ⟨.other nofun, .function hclosure (.inl rfl)⟩)
  have hcode : CallFree code :=
    .form (.special hchoose) (by simpa using ⟨htest, hdefinition, .empty⟩)
  have hinner : ListExpression (listForm [.boolean true]) :=
    .list (by simpa using .constant nofun nofun)
  have hlists : ListExpression lists :=
    .list (by simpa using ⟨.constant nofun nofun, .empty, .list (by simpa using hinner)⟩)
  refine ⟨code, lists, hcode, rfl, ?_, hlists, rfl, ?_, ?_⟩
  · exact (depth_of_text_suffices 5 Scope.initial code).1 hcode (Nat.le_refl 5)
  · exact ((depth_of_text_suffices 3 Scope.initial lists).2 hlists).2 (Nat.le_refl 3)
  · exact fun h =>
      absurd (((depth_of_text_suffices 2 Scope.initial lists).2 hlists).1 h) (by decide)

end MiniLisp
