import MiniLisp.Proofs.Evaluation.PartialApplication
import MiniLisp.Proofs.Evaluation.Simulation

/-!
# Names that nobody mentions

Scopes that agree on all names but some hidden ones cannot be told apart by code in which the hidden
names do not occur, though they may be printed (`Simulation.hiding`). The parameters of a native in
want of arguments are such names, unless the code that the native evaluates mentions them. Then it
sees the arguments of the native in place of what it meant (`split_call_captures`); else it gives
the answer of the whole call (`split_call_same_answer`).
-/

namespace MiniLisp

/-- A value in which no hidden name stands as a symbol. The body that a native gives its function
is excepted: it names its own parameters only. -/
inductive Value.Avoids (hidden : List String) : Value → Prop
  | unit : Avoids hidden .unit
  | boolean (b : Bool) : Avoids hidden (.boolean b)
  | number (n : Int) : Avoids hidden (.number n)
  | text (s : String) : Avoids hidden (.text s)
  | symbol {name : Name} (h : name.text ∉ hidden) : Avoids hidden (.symbol name)
  | quoted {v : Value} (h : Avoids hidden v) : Avoids hidden (.quoted v)
  | sequence {vs : List Value} (h : ∀ v ∈ vs, Avoids hidden v) : Avoids hidden (.sequence vs)
  | closure {parameters : List String} {body : Value} {applied : List Value}
      (hbody : Avoids hidden body) (happlied : ∀ v ∈ applied, Avoids hidden v) :
      Avoids hidden (.function parameters body applied)
  | curried {native : Native} {name : Name} {applied : List Value}
      (hname : Native.ofName? name.text = some native) (happlied : ∀ v ∈ applied, Avoids hidden v) :
      Avoids hidden (native.curried name applied).toValue

namespace ValueClass

variable {hidden : List String}

theorem avoids_applied {f : Function} (h : f.toValue.Avoids hidden) :
    ∀ v ∈ f.applied, v.Avoids hidden := by
  rcases f with ⟨parameters, body, applied⟩
  cases h with
  | closure hbody happlied => exact happlied
  | curried hname happlied => exact happlied

theorem avoids_body {f : Function} (h : f.toValue.Avoids hidden) : f.body.Avoids hidden ∨
    ∃ native name, Native.ofName? name.text = some native ∧ f = native.curried name f.applied := by
  rcases f with ⟨parameters, body, applied⟩
  cases h with
  | closure hbody happlied => exact .inl hbody
  | curried hname happlied => exact .inr ⟨_, _, hname, rfl⟩

theorem avoids_receive {f : Function} {arguments : List Value} (h : f.toValue.Avoids hidden)
    (harguments : ∀ v ∈ arguments, v.Avoids hidden) :
    (f.receive arguments).toValue.Avoids hidden := by
  have hreceived : ∀ v ∈ f.applied ++ arguments, v.Avoids hidden :=
    List.forall_mem_append.2 ⟨avoids_applied h, harguments⟩
  rcases avoids_body h with hbody | ⟨native, name, hname, heq⟩
  · exact .closure hbody hreceived
  · rw [heq]
    exact .curried hname hreceived

/-- The values that avoid some names. -/
def avoiding (hidden : List String) : ValueClass where
  Has := Value.Avoids hidden
  unit := .unit
  boolean := .boolean
  text := .text
  number _ := .number _
  quoted_iff := ⟨fun h => by cases h; assumption, .quoted⟩
  sequence_iff := ⟨fun h => by cases h; assumption, .sequence⟩
  applied := avoids_applied
  body := avoids_body
  closure hbody _ := .closure hbody nofun
  receive h harguments _ := avoids_receive h harguments
  curried hname _ harguments _ := .curried hname harguments

end ValueClass

/-- Scopes that agree on all names but the hidden ones, and bind none of the others to a value that
mentions these. -/
structure Scope.AgreeOutside (hidden : List String) (s t : Scope) : Prop where
  label : s.label = t.label
  get? : ∀ x ∉ hidden, s.get? x = t.get? x
  avoids : ∀ x ∉ hidden, ∀ v, t.get? x = some v → v.Avoids hidden

namespace Scope.AgreeOutside

variable {hidden : List String} {s t : Scope}

theorem refl (h : ∀ x ∉ hidden, ∀ v, s.get? x = some v → v.Avoids hidden) :
    AgreeOutside hidden s s := ⟨rfl, fun _ _ => rfl, h⟩

theorem initial : AgreeOutside hidden Scope.initial Scope.initial :=
  refl fun _ _ _ hv => (ValueClass.avoiding hidden).has_of_get?_initial hv

theorem bind (h : AgreeOutside hidden s t) (name : String) {v : Value} (hv : v.Avoids hidden) :
    AgreeOutside hidden (s.bind name v) (t.bind name v) where
  label := h.label
  get? x hx := by rw [Scope.get?_bind, Scope.get?_bind, h.get? x hx]
  avoids _ hx _ hw := (ValueClass.avoiding hidden).has_of_get?_bind h.avoids hv hx hw

/-- What hidden names are bound to may differ. -/
theorem of_bindAll (h : ∀ x ∉ hidden, ∀ v, s.get? x = some v → v.Avoids hidden)
    {pairs : List (String × Value)} (hpairs : ∀ pair ∈ pairs, pair.1 ∈ hidden) :
    AgreeOutside hidden (s.bindAll pairs) s where
  label := s.label_bindAll pairs
  get? x hx := by
    apply Scope.get?_bindAll_of_forall_ne
    intro pair hpair heq
    rw [← heq] at hx
    exact hx (hpairs pair hpair)
  avoids := h

end Scope.AgreeOutside

/-- Code that does not mention what is hidden does not see it, save where scopes are printed. -/
def Simulation.hiding (hidden : List String) : Simulation where
  toValueClass := .avoiding hidden
  Scopes := Scope.AgreeOutside hidden
  Lines _ _ := True
  line_refl _ := trivial
  line_render _ := trivial
  initial := .initial
  label h := h.label
  relabel h _ := ⟨rfl, h.get?, h.avoids⟩
  bind h name _ hv := h.bind name hv
  get? h name hname := by
    have hvisible : name.text ∉ hidden := by
      cases hname
      assumption
    exact ⟨h.get? name.text hvisible, h.avoids name.text hvisible⟩

/-! ## Answers -/

/-- What a run ends in, without the scope it leaves. -/
def Run.answer (x : Run (Scope × Value)) : Except Error Value := x.result.map Prod.snd

theorem Run.answer_returningTo (caller : Scope) (x : Run (Scope × Value)) :
    (x.returningTo caller).answer = x.answer := by
  rcases x with ⟨out, e | ⟨after, v⟩⟩ <;> rfl

theorem Simulation.InStep.answer_eq {σ : Simulation} {x y : Run (Scope × Value)}
    (h : σ.InStep x y) : x.answer = y.answer := by
  unfold Simulation.InStep at h
  cases h with
  | error hout e => rfl
  | @ok out out' p q hout hpq => exact congrArg Except.ok hpq.2.1

namespace Native

-- No native has the name of a parameter.
theorem text_notMem_parameters {native native' : Native} {name : Name}
    (hname : ofName? name.text = some native) : name.text ∉ native'.parameters.map Name.text := by
  have hall : ∀ parameter ∈ parameterNames, ofName? parameter.text = none := by decide
  intro hmem
  obtain ⟨parameter, hparameter, heq⟩ := List.mem_map.1 hmem
  have hnone := hall parameter (List.mem_of_mem_take hparameter)
  rw [heq, hname] at hnone
  cases hnone

theorem avoids_wholeCall {native : Native} {name : Name} (hname : ofName? name.text = some native)
    {vs : List Value} (hvs : ∀ v ∈ vs, v.Avoids (native.parameters.map Name.text)) :
    (wholeCall name vs).Avoids (native.parameters.map Name.text) := by
  refine .sequence (List.forall_mem_cons.2 ⟨.symbol (text_notMem_parameters hname), ?_⟩)
  intro e he
  obtain ⟨v, hv, rfl⟩ := List.mem_map.1 he
  exact .quoted (hvs v hv)

/-- A native that gets its arguments in two calls does in the end what one call does, but where its
parameters are bound to the arguments. If neither the arguments nor what the scope binds mention
these parameters, that makes no difference: the two forms give the same answer. -/
theorem split_call_same_answer {native : Native} {name : Name}
    (hname : ofName? name.text = some native) {k : Nat} (hk : k < native.arity) {vs : List Value}
    (hlength : vs.length = native.arity) (scope : Scope) :
    (∀ budget, evaluate (budget + 2) scope (splitCall name k vs) =
      (evaluate (budget + 1) (scope.bindAll ((native.parameters.map Name.text).zip vs))
        (wholeCall name vs)).returningTo scope) ∧
    ((∀ v ∈ vs, v.Avoids (native.parameters.map Name.text)) →
      (∀ x ∉ native.parameters.map Name.text, ∀ v, scope.get? x = some v →
        v.Avoids (native.parameters.map Name.text)) →
      ∀ limit limit', ¬ (evaluateWithin limit scope (splitCall name k vs)).OutOfDepth →
        ¬ (evaluateWithin limit' scope (wholeCall name vs)).OutOfDepth →
          (evaluateWithin limit scope (splitCall name k vs)).answer =
            (evaluateWithin limit' scope (wholeCall name vs)).answer) := by
  have hsplit := fun budget => evaluate_splitCall hname hk budget scope hlength
  refine ⟨hsplit, fun hvs hbound limit limit' hdepth hdepth' => ?_⟩
  have hscopes : Scope.AgreeOutside (native.parameters.map Name.text)
      (scope.bindAll ((native.parameters.map Name.text).zip vs)) scope :=
    .of_bindAll hbound fun pair hpair => (List.of_mem_zip hpair).1
  -- A depth that both forms can do with.
  have hlimit : limit ≤ max limit limit' + 2 := by omega
  have hlimit' : limit' ≤ max limit limit' + 1 := by omega
  have hstep : (Simulation.hiding (native.parameters.map Name.text)).InStep _ _ :=
    Simulation.evaluate_inStep (max limit limit' + 1) hscopes (avoids_wholeCall hname hvs)
  rw [evaluateWithin_eq_deeper hlimit hdepth, evaluateWithin_eq_deeper hlimit' hdepth', hsplit,
    Run.answer_returningTo]
  exact hstep.answer_eq

/-- The scope binds a parameter of `map`, which nothing mentions. -/
theorem split_call_same_answer_doubling :
    ∃ (scope : Scope) (name : Name) (vs : List Value), scope.get? "a1" = some (.number 7) ∧
      (∀ budget, evaluate (budget + 2) scope (splitCall name 1 vs) =
        (evaluate (budget + 1) (scope.bindAll (["a0", "a1"].zip vs))
          (wholeCall name vs)).returningTo scope) ∧
      (evaluateWithin 1000 scope (splitCall name 1 vs)).answer =
        (evaluateWithin 3 scope (wholeCall name vs)).answer ∧
      (evaluateWithin 3 scope (wholeCall name vs)).answer =
        .ok (.sequence [.number 2, .number 4]) := by
  let body : Value := .sequence [.symbol ⟨"*", by decide⟩, .symbol ⟨"n", by decide⟩, .number 2]
  let double : Function := { parameters := ["n"], body := body }
  let scope : Scope := (Scope.initial.bind "double" double.toValue).bind "a1" (.number 7)
  let name : Name := ⟨"map", by decide⟩
  let vs : List Value := [.symbol ⟨"double", by decide⟩, .sequence [.number 1, .number 2]]
  have hbody : body.Avoids ["a0", "a1"] := by
    refine .sequence (List.forall_mem_cons.2 ⟨.symbol (by decide), ?_⟩)
    exact List.forall_mem_cons.2 ⟨.symbol (by decide), List.forall_mem_singleton.2 (.number 2)⟩
  have hvs : ∀ v ∈ vs, v.Avoids ["a0", "a1"] := by
    refine List.forall_mem_cons.2 ⟨.symbol (by decide), List.forall_mem_singleton.2 (.sequence ?_)⟩
    exact List.forall_mem_cons.2 ⟨.number 1, List.forall_mem_singleton.2 (.number 2)⟩
  have hscope : Scope.AgreeOutside ["a0", "a1"] scope scope :=
    (Scope.AgreeOutside.initial.bind "double" (.closure hbody (List.forall_mem_nil _))).bind
      "a1" (.number 7)
  have hsplit : (evaluateWithin 1000 scope (splitCall name 1 vs)).result =
      .ok (scope, .sequence [.number 2, .number 4]) := rfl
  have hwhole : (evaluateWithin 3 scope (wholeCall name vs)).result =
      .ok (scope, .sequence [.number 2, .number 4]) := rfl
  have hname : ofName? name.text = some .map := rfl
  have hk : 1 < Native.map.arity := by decide
  have hlength : vs.length = Native.map.arity := rfl
  obtain ⟨hform, hanswer⟩ := split_call_same_answer hname hk hlength scope
  have hanswer := hanswer hvs hscope.avoids 1000 3 (Run.not_outOfDepth_of_ok hsplit)
    (Run.not_outOfDepth_of_ok hwhole)
  refine ⟨scope, name, vs, rfl, hform, hanswer, ?_⟩
  rw [Run.answer, hwhole]
  rfl

/-- Code that mentions a parameter gets the argument, which is the code itself, and not what the
scope binds. -/
theorem split_call_captures :
    (evaluateWithin 1000 (Scope.initial.bind "a0" (.number 5))
      (splitCall { text := "eval" } 0 [.symbol { text := "a0" }])).answer =
        .ok (.symbol { text := "a0" }) ∧
    (evaluateWithin 1000 (Scope.initial.bind "a0" (.number 5))
      (wholeCall { text := "eval" } [.symbol { text := "a0" }])).answer = .ok (.number 5) :=
  ⟨rfl, rfl⟩

end Native

end MiniLisp
