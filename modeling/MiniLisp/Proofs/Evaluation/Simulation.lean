import MiniLisp.Proofs.Evaluation.Natives

/-!
# Scopes that evaluation cannot tell apart

A simulation relates scopes and keeps to a class of values. If related scopes agree on what the
values of the class can look up, and binding keeps them related, then evaluation from two related
scopes goes in step: it ends in related scopes and one value of the class, or in one error
(`Simulation.evaluate_inStep`). On a relation that implies equality this is an invariant of one run.

The induction is on the budget. What lies between two lists is proved for any evaluator that goes in
step on the values of the class and on the bodies of its functions.
-/

namespace MiniLisp

structure Simulation extends ValueClass where
  Scopes : Scope → Scope → Prop
  /-- Which line may be printed in place of which. -/
  Lines : String → String → Prop
  line_refl (line : String) : Lines line line
  line_render {s t : Scope} (h : Scopes s t) : Lines s.render t.render
  initial : Scopes Scope.initial Scope.initial
  label {s t : Scope} (h : Scopes s t) : s.label = t.label
  relabel {s t : Scope} (h : Scopes s t) (c : Name) : Scopes (s.relabel c) (t.relabel c)
  bind {s t : Scope} (h : Scopes s t) (name : String) {v : Value} (hv : Has v) :
    Scopes (s.bind name v) (t.bind name v)
  get? {s t : Scope} (h : Scopes s t) {name : Name} (hname : Has (.symbol name)) :
    s.get? name.text = t.get? name.text ∧ ∀ v, t.get? name.text = some v → Has v

namespace Simulation

variable (σ : Simulation)

/-- Runs in step that end in related scopes and one value of the class. -/
def InStep : Run (Scope × Value) → Run (Scope × Value) → Prop :=
  Run.InStep σ.Lines fun p q => σ.Scopes p.1 q.1 ∧ p.2 = q.2 ∧ σ.Has p.2

/-- Runs in step that end in related scopes and one row of values of the class. -/
def InStepEach : Run (Scope × List Value) → Run (Scope × List Value) → Prop :=
  Run.InStep σ.Lines fun p q => σ.Scopes p.1 q.1 ∧ p.2 = q.2 ∧ ∀ v ∈ p.2, σ.Has v

/-- An evaluator that goes in step from related scopes. -/
structure Steps (ev : Evaluator) : Prop where
  expression {s t : Scope} {e : Value} (hscopes : σ.Scopes s t) (he : σ.Has e) :
    σ.InStep (ev s e) (ev t e)
  body {s t : Scope} {f : Function} {arguments : List Value} (hscopes : σ.Scopes s t)
    (hf : σ.Has f.toValue) (harguments : ∀ v ∈ arguments, σ.Has v)
    (hlength : arguments.length = f.arity) :
    σ.InStep (ev (f.callScope s arguments) f.body) (ev (f.callScope t arguments) f.body)

variable {σ}

theorem InStep.pure {s t : Scope} {v : Value} (hscopes : σ.Scopes s t) (hv : σ.Has v) :
    σ.InStep (Pure.pure (s, v)) (Pure.pure (t, v)) := Run.InStep.pure ⟨hscopes, rfl, hv⟩

theorem InStep.relabelled {x y : Run (Scope × Value)} (h : σ.InStep x y) (c : Name) :
    σ.InStep (relabelled c x) (relabelled c y) := by
  refine Run.InStep.bind h fun ⟨s, v⟩ ⟨t, w⟩ ⟨hscopes, hvalue, hv⟩ => ?_
  exact Run.InStep.pure ⟨σ.relabel hscopes c, hvalue, hv⟩

theorem InStep.result_cases {x y : Run (Scope × Value)} (h : σ.InStep x y) :
    (∃ s t v, x.result = .ok (s, v) ∧ y.result = .ok (t, v) ∧ σ.Scopes s t ∧ σ.Has v) ∨
      ∃ e, x.result = .error e ∧ y.result = .error e := by
  unfold InStep at h
  cases h with
  | @ok out out' p q hout hpq =>
    obtain ⟨hscopes, hvalue, hv⟩ := hpq
    refine .inl ⟨p.1, q.1, p.2, rfl, ?_, hscopes, hv⟩
    rw [hvalue]
  | error hout e => exact .inr ⟨e, rfl, rfl⟩

theorem bindAll {s t : Scope} (hscopes : σ.Scopes s t) {pairs : List (String × Value)}
    (hpairs : ∀ pair ∈ pairs, σ.Has pair.2) : σ.Scopes (s.bindAll pairs) (t.bindAll pairs) := by
  induction pairs generalizing s t with
  | nil => exact hscopes
  | cons pair pairs ih =>
    obtain ⟨hpair, hpairs⟩ := List.forall_mem_cons.1 hpairs
    exact ih (σ.bind hscopes pair.1 hpair) hpairs

theorem has_of_closure {context : Name} {position : Nat} {parameters body : Value} {f : Function}
    (hbody : σ.Has body) (h : SpecialForm.closure context position parameters body = .ok f) :
    σ.Has f.toValue := by
  unfold SpecialForm.closure at h
  cases hitems : coerceArgument Value.toSequence context position parameters with
  | error e =>
    rw [hitems] at h
    cases h
  | ok items =>
    rw [hitems] at h
    change (items.mapM (coerceArgument Value.toSymbolName context position) >>= fun names =>
      .ok { parameters := names.map Name.text, body := body }) = Except.ok f at h
    cases hnames : items.mapM (coerceArgument Value.toSymbolName context position) with
    | error e =>
      rw [hnames] at h
      cases h
    | ok names =>
      rw [hnames] at h
      cases h
      exact σ.closure hbody _

/-! ## Between two lists -/

section

variable {ev : Evaluator} (hev : σ.Steps ev) {s t : Scope} (hscopes : σ.Scopes s t)
include hev hscopes

theorem evaluateEach_inStep {es : List Value} (hes : ∀ e ∈ es, σ.Has e) :
    σ.InStepEach (evaluateEach ev s es) (evaluateEach ev t es) := by
  induction es generalizing s t with
  | nil => exact Run.InStep.pure ⟨hscopes, rfl, nofun⟩
  | cons e es ih =>
    obtain ⟨he, hes⟩ := List.forall_mem_cons.1 hes
    unfold evaluateEach
    refine Run.InStep.bind (hev.expression hscopes he) ?_
    rintro ⟨s', v⟩ ⟨t', _⟩ ⟨hscopes', rfl, hv⟩
    refine Run.InStep.bind (ih hscopes' hes) ?_
    rintro ⟨s'', vs⟩ ⟨t'', _⟩ ⟨hscopes'', rfl, hvs⟩
    exact Run.InStep.pure ⟨hscopes'', rfl, List.forall_mem_cons.2 ⟨hv, hvs⟩⟩

theorem apply_inStep {f : Function} (hf : σ.Has f.toValue) {arguments : List Value}
    (harguments : ∀ v ∈ arguments, σ.Has v) :
    σ.InStep (f.apply ev s arguments) (f.apply ev t arguments) := by
  have hreceived : ∀ v ∈ f.applied ++ arguments, σ.Has v :=
    List.forall_mem_append.2 ⟨σ.applied hf, harguments⟩
  rcases Nat.lt_trichotomy (f.applied.length + arguments.length) f.arity with
    hfew | hlength | hmany
  · rw [Function.apply_of_length_lt hfew, Function.apply_of_length_lt hfew]
    exact InStep.pure hscopes (σ.receive hf harguments hfew)
  · rw [Function.apply_of_length_eq hlength, Function.apply_of_length_eq hlength]
    rw [← List.length_append] at hlength
    refine Run.InStep.bind (hev.body hscopes hf hreceived hlength) ?_
    rintro ⟨s', v⟩ ⟨t', _⟩ ⟨-, rfl, hv⟩
    -- The scopes that the body left are dropped.
    exact InStep.pure hscopes hv
  · rw [Function.apply_of_lt_length hmany, Function.apply_of_lt_length hmany, σ.label hscopes]
    exact .fail _

theorem foldItems_inStep {operation accumulator : Value} (hoperation : σ.Has operation)
    (haccumulator : σ.Has accumulator) {items : List Value} (hitems : ∀ v ∈ items, σ.Has v) :
    σ.InStep (Native.foldItems ev operation s accumulator items)
      (Native.foldItems ev operation t accumulator items) := by
  induction items generalizing s t accumulator with
  | nil => exact InStep.pure hscopes haccumulator
  | cons item items ih =>
    obtain ⟨hitem, hitems⟩ := List.forall_mem_cons.1 hitems
    have hform : σ.Has (.sequence [operation, .quoted accumulator, .quoted item]) := by
      simp only [σ.sequence_iff, List.forall_mem_cons, σ.quoted_iff]
      exact ⟨hoperation, haccumulator, hitem, nofun⟩
    unfold Native.foldItems
    refine Run.InStep.bind (hev.expression hscopes hform) ?_
    rintro ⟨s', v⟩ ⟨t', _⟩ ⟨hscopes', rfl, hv⟩
    exact ih hscopes' hv hitems

theorem procedure_inStep (native : Native) :
    Procedure.Related σ.Has σ.InStep (native.procedure ev s) (native.procedure ev t) := by
  have hlabel := σ.label hscopes
  have hsteady : ∀ native : Native, native.evaluatesCode = false → 0 < native.arity →
      Procedure.Related σ.Has σ.InStep (native.procedure ev s) (native.procedure ev t) := by
    intro native hcode harity
    refine (Native.procedure_steady σ.toValueClass σ.line_refl hcode harity ev ev hlabel).mono
      fun x y h => Run.InStep.mono h ?_
    rintro ⟨s', v⟩ ⟨t', w⟩ ⟨rfl, rfl, hvalue, hv⟩
    exact ⟨hscopes, hvalue, hv⟩
  cases native with
  | eval => exact .unary fun v hv => hev.expression hscopes hv
  | printScope => exact .nullary (.bind_print (σ.line_render hscopes) (InStep.pure hscopes σ.unit))
  | clearScope => exact .nullary (InStep.pure σ.initial σ.unit)
  | fold =>
    refine .ternary fun operation accumulator v hoperation haccumulator hv => ?_
    rw [hlabel]
    refine .bind_ofExcept fun items hitems => ?_
    rw [coerceArgument_toSequence_eq_ok hitems, σ.sequence_iff] at hv
    exact foldItems_inStep hev hscopes hoperation haccumulator hv
  | map =>
    refine .binary fun operation v hoperation hv => ?_
    rw [hlabel]
    refine .bind_ofExcept fun items hitems => ?_
    rw [coerceArgument_toSequence_eq_ok hitems, σ.sequence_iff] at hv
    have hforms : ∀ e ∈ items.map fun item => .sequence [operation, .quoted item], σ.Has e := by
      intro e he
      obtain ⟨item, hitem, rfl⟩ := List.mem_map.1 he
      simp only [σ.sequence_iff, List.forall_mem_cons, σ.quoted_iff]
      exact ⟨hoperation, hv item hitem, nofun⟩
    refine Run.InStep.bind (evaluateEach_inStep hev hscopes hforms) ?_
    rintro ⟨s', results⟩ ⟨t', _⟩ ⟨hscopes', rfl, hresults⟩
    exact InStep.pure hscopes' (σ.sequence_iff.2 hresults)
  | _ => exact hsteady _ rfl (Nat.zero_lt_succ _)

theorem call_inStep {native : Native} {name : Name} (hname : Native.ofName? name.text = some native)
    (hsymbol : σ.Has (.symbol name)) {arguments : List Value}
    (harguments : ∀ v ∈ arguments, σ.Has v) :
    σ.InStep (native.call ev s name arguments) (native.call ev t name arguments) := by
  by_cases hlength : arguments.length = native.arity
  · exact Native.call_related (procedure_inStep hev hscopes native) harguments hlength
  · rw [Native.call_of_length_ne hlength, Native.call_of_length_ne hlength]
    by_cases hfew : arguments.length < native.arity
    · rw [if_pos hfew, if_pos hfew]
      exact InStep.pure hscopes (σ.curried hname hsymbol harguments hfew)
    · rw [if_neg hfew, if_neg hfew]
      exact .fail _

theorem run_inStep (form : SpecialForm) {arguments : List Value}
    (harguments : ∀ v ∈ arguments, σ.Has v) :
    σ.InStep (form.run ev s arguments) (form.run ev t arguments) := by
  have hlabel := σ.label hscopes
  unfold SpecialForm.run
  rw [hlabel]
  split
  · rename_i target e
    have he : σ.Has e := harguments e (by simp)
    refine .bind_ofExcept fun name hname => ?_
    refine Run.InStep.bind (hev.expression hscopes he) ?_
    rintro ⟨s', v⟩ ⟨t', _⟩ ⟨hscopes', rfl, hv⟩
    exact InStep.pure (σ.bind hscopes' name.text hv) σ.unit
  · rename_i target parameters body
    have hbody : σ.Has body := harguments body (by simp)
    refine .bind_ofExcept fun name hname => .bind_ofExcept fun f hf => ?_
    exact InStep.pure (σ.bind hscopes name.text (has_of_closure hbody hf)) σ.unit
  · rename_i parameters body
    have hbody : σ.Has body := harguments body (by simp)
    refine .bind_ofExcept fun f hf => ?_
    exact InStep.pure hscopes (has_of_closure hbody hf)
  · rename_i test yes no
    have htest : σ.Has test := harguments test (by simp)
    refine Run.InStep.bind (hev.expression hscopes htest) ?_
    rintro ⟨s', v⟩ ⟨t', _⟩ ⟨hscopes', rfl, hv⟩
    refine .bind_ofExcept fun b hb => ?_
    cases b with
    | true => exact hev.expression hscopes' (harguments yes (by simp))
    | false => exact hev.expression hscopes' (harguments no (by simp))
  · exact .fail _

theorem evaluateNamed_inStep {name : Name} (hname : σ.Has (.symbol name)) {tail : List Value}
    (htail : ∀ v ∈ tail, σ.Has v) :
    σ.InStep (evaluateNamed ev s name tail) (evaluateNamed ev t name tail) := by
  unfold evaluateNamed
  split
  · exact run_inStep hev hscopes _ htail
  refine Run.InStep.bind (evaluateEach_inStep hev hscopes htail) ?_
  rintro ⟨s', arguments⟩ ⟨t', _⟩ ⟨hscopes', rfl, harguments⟩
  simp only
  by_cases hlist : name.text = listConstructor
  · simp only [if_pos hlist]
    exact InStep.pure hscopes' (σ.sequence_iff.2 harguments)
  simp only [if_neg hlist]
  split
  · rename_i native hnative
    exact call_inStep hev hscopes' hnative hname harguments
  obtain ⟨hget, hbound⟩ := σ.get? hscopes' hname
  rw [hget]
  cases hlookup : t'.get? name.text with
  | none => exact .fail _
  | some v =>
    cases hcallee : v.toFunction? with
    | none =>
      simp only [hcallee]
      exact .fail _
    | some f =>
      have hf := hbound v hlookup
      rw [Value.toFunction?_eq_some_iff.1 hcallee] at hf
      simp only [hcallee]
      exact apply_inStep hev hscopes' hf harguments

theorem evaluateHead_inStep {head : Value} (hhead : σ.Has head) :
    σ.InStep (evaluateHead ev s head) (evaluateHead ev t head) := by
  unfold evaluateHead
  split
  · exact hev.expression hscopes hhead
  · exact InStep.pure hscopes hhead

theorem evaluateForm_inStep {items : List Value} (hitems : ∀ v ∈ items, σ.Has v) :
    σ.InStep (evaluateForm ev s items) (evaluateForm ev t items) := by
  unfold evaluateForm
  split
  · exact InStep.pure hscopes (σ.sequence_iff.2 nofun)
  · obtain ⟨hname, htail⟩ := List.forall_mem_cons.1 hitems
    exact evaluateNamed_inStep hev (σ.relabel hscopes _) hname htail
  · obtain ⟨hhead, htail⟩ := List.forall_mem_cons.1 hitems
    refine Run.InStep.bind (evaluateHead_inStep hev hscopes hhead) ?_
    rintro ⟨s', callee⟩ ⟨t', _⟩ ⟨hscopes', rfl, hcallee⟩
    simp only
    split
    · rename_i f hf
      rw [Value.toFunction?_eq_some_iff.1 hf] at hcallee
      refine Run.InStep.bind (evaluateEach_inStep hev (σ.relabel hscopes' _) htail) ?_
      rintro ⟨s'', arguments⟩ ⟨t'', _⟩ ⟨hscopes'', rfl, harguments⟩
      exact apply_inStep hev hscopes'' hcallee harguments
    · exact .fail _

end

/-! ## The budget -/

theorem evaluate_inStep_of_ne_sequence {s t : Scope} (hscopes : σ.Scopes s t) {e : Value}
    (he : σ.Has e) (hlist : ¬ ∃ items, e = .sequence items) (budget : Nat) :
    σ.InStep (evaluate budget s e) (evaluate budget t e) := by
  cases e with
  | sequence items => exact absurd ⟨items, rfl⟩ hlist
  | symbol name =>
    obtain ⟨hget, hbound⟩ := σ.get? hscopes he
    simp only [evaluate, hget]
    cases hlookup : t.get? name.text with
    | none => exact .fail _
    | some v => exact InStep.pure hscopes (hbound v hlookup)
  | quoted v =>
    simp only [evaluate]
    exact InStep.pure hscopes (σ.quoted_iff.1 he)
  | _ =>
    simp only [evaluate]
    exact InStep.pure hscopes he

theorem callScope_scopes {s t : Scope} (hscopes : σ.Scopes s t) (f : Function)
    {arguments : List Value} (harguments : ∀ v ∈ arguments, σ.Has v) :
    σ.Scopes (f.callScope s arguments) (f.callScope t arguments) :=
  bindAll hscopes fun _ hpair => harguments _ (List.of_mem_zip hpair).2

section

variable {budget : Nat} (hsmaller : ∀ smaller, budget = smaller + 1 → σ.Steps (evaluate smaller))
  {s t : Scope} (hscopes : σ.Scopes s t)
include hsmaller hscopes

theorem evaluate_expression_inStep {e : Value} (he : σ.Has e) :
    σ.InStep (evaluate budget s e) (evaluate budget t e) := by
  by_cases hlist : ∃ items, e = .sequence items
  · obtain ⟨items, rfl⟩ := hlist
    have hlabel := σ.label hscopes
    cases budget with
    | zero =>
      simp only [evaluate, hlabel]
      exact .fail _
    | succ smaller =>
      rw [evaluate_sequence, evaluate_sequence, hlabel]
      exact (evaluateForm_inStep (hsmaller smaller rfl) hscopes (σ.sequence_iff.1 he)).relabelled
        t.label
  · exact evaluate_inStep_of_ne_sequence hscopes he hlist budget

-- A body that is not in the class itself calls a native on the parameters.
theorem evaluate_body_inStep {f : Function} (hf : σ.Has f.toValue) {arguments : List Value}
    (harguments : ∀ v ∈ arguments, σ.Has v) (hlength : arguments.length = f.arity) :
    σ.InStep (evaluate budget (f.callScope s arguments) f.body)
      (evaluate budget (f.callScope t arguments) f.body) := by
  have hcalled := callScope_scopes hscopes f harguments
  rcases σ.body hf with hbody | ⟨native, name, hname, heq⟩
  · exact evaluate_expression_inStep hsmaller hcalled hbody
  generalize f.applied = applied at heq
  subst heq
  rw [Native.arity_curried] at hlength
  cases budget with
  | zero =>
    have hlabel := σ.label hcalled
    simp only [Native.curried, evaluate] at hlabel ⊢
    rw [hlabel]
    exact .fail _
  | succ smaller =>
    rw [Native.evaluate_body_curried hname smaller s applied hlength,
      Native.evaluate_body_curried hname smaller t applied hlength, σ.label hscopes]
    have hprocedure := procedure_inStep (hsmaller smaller rfl) (σ.relabel hcalled name) native
    exact (Native.call_related hprocedure harguments hlength).relabelled t.label

end

theorem evaluate_steps (budget : Nat) : σ.Steps (evaluate budget) := by
  -- A body that calls a native spends a level before the native evaluates anything.
  induction budget using Nat.strongRecOn with
  | ind budget ih =>
    have hsmaller : ∀ smaller, budget = smaller + 1 → σ.Steps (evaluate smaller) :=
      fun smaller h => ih smaller (by omega)
    constructor
    · intro s t e hscopes he
      exact evaluate_expression_inStep hsmaller hscopes he
    · intro s t f arguments hscopes hf harguments hlength
      exact evaluate_body_inStep hsmaller hscopes hf harguments hlength

/-- From related scopes evaluation goes in step. -/
theorem evaluate_inStep (budget : Nat) {s t : Scope} (hscopes : σ.Scopes s t) {e : Value}
    (he : σ.Has e) : σ.InStep (evaluate budget s e) (evaluate budget t e) :=
  (evaluate_steps budget).expression hscopes he

end Simulation

/-! ## Invariants -/

/-- A property of scopes that evaluation keeps on a class of values. -/
structure Invariant extends ValueClass where
  Holds : Scope → Prop
  initial : Holds Scope.initial
  relabel {s : Scope} (h : Holds s) (c : Name) : Holds (s.relabel c)
  bind {s : Scope} (h : Holds s) (name : String) {v : Value} (hv : Has v) : Holds (s.bind name v)
  get? {s : Scope} (h : Holds s) {name : Name} (hname : Has (.symbol name)) {v : Value}
    (hget : s.get? name.text = some v) : Has v

namespace Invariant

/-- An invariant relates each scope that has it to itself. -/
def simulation (ι : Invariant) : Simulation where
  toValueClass := ι.toValueClass
  Scopes s t := s = t ∧ ι.Holds t
  Lines := Eq
  line_refl _ := rfl
  line_render h := congrArg Scope.render h.1
  initial := ⟨rfl, ι.initial⟩
  label h := congrArg Scope.label h.1
  relabel h c := ⟨congrArg (Scope.relabel · c) h.1, ι.relabel h.2 c⟩
  bind h name _ hv := ⟨congrArg (Scope.bind · name _) h.1, ι.bind h.2 name hv⟩
  get? h _ hname := ⟨by rw [h.1], fun _ hget => ι.get? h.2 hname hget⟩

theorem evaluate_keeps (ι : Invariant) {budget : Nat} {s after : Scope} {e v : Value}
    (hs : ι.Holds s) (he : ι.Has e) (hresult : (evaluate budget s e).result = .ok (after, v)) :
    ι.Holds after ∧ ι.Has v := by
  have hself : ι.simulation.Scopes s s := ⟨rfl, hs⟩
  have hstep := Simulation.evaluate_inStep budget hself he
  obtain ⟨⟨-, hafter⟩, -, hv⟩ := Run.InStep.of_result_ok hstep hresult hresult
  exact ⟨hafter, hv⟩

end Invariant

end MiniLisp
