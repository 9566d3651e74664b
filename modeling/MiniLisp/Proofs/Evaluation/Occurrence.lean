import MiniLisp.Proofs.Evaluation.Simulation

/-!
# Values inside values

A value occurs in itself, and in whatever quotes it, lists it, has it as a body, or has received it
as an argument. A property that holds of every value that occurs in one value is said to hold
everywhere in it. If the property tells values by their outermost layer only, and refuses no more
than some numbers, some symbols and functions with too many arguments (`Value.Shallow`), the values
in which it holds everywhere are a class that evaluation does not leave (`ValueClass.everywhere`),
and so are the scopes that bind names to such values (`Invariant.binding`).
-/

namespace MiniLisp

namespace Value

/-- The value `part` is `v` or stands somewhere inside it. -/
inductive Occurs (part : Value) : Value → Prop
  | self : Occurs part part
  | quoted {v : Value} (h : Occurs part v) : Occurs part (.quoted v)
  | item {v : Value} {vs : List Value} (hv : v ∈ vs) (h : Occurs part v) :
      Occurs part (.sequence vs)
  | body {parameters : List String} {body : Value} {applied : List Value} (h : Occurs part body) :
      Occurs part (.function parameters body applied)
  | applied {parameters : List String} {body v : Value} {applied : List Value} (hv : v ∈ applied)
      (h : Occurs part v) : Occurs part (.function parameters body applied)

/-- The property holds of the value and of every value inside it. -/
def Everywhere (P : Value → Prop) (v : Value) : Prop := ∀ part, part.Occurs v → P part

section

variable {P : Value → Prop}

theorem everywhere_symbol_iff {name : Name} : (symbol name).Everywhere P ↔ P (.symbol name) := by
  constructor
  · intro h
    exact h _ .self
  · intro h part hpart
    cases hpart
    exact h

theorem everywhere_quoted_iff {v : Value} :
    (quoted v).Everywhere P ↔ P (.quoted v) ∧ v.Everywhere P := by
  constructor
  · intro h
    exact ⟨h _ .self, fun part hpart => h part (.quoted hpart)⟩
  · rintro ⟨hself, hinner⟩ part hpart
    cases hpart with
    | self => exact hself
    | quoted hpart => exact hinner part hpart

theorem everywhere_sequence_iff {vs : List Value} :
    (sequence vs).Everywhere P ↔ P (.sequence vs) ∧ ∀ v ∈ vs, v.Everywhere P := by
  constructor
  · intro h
    exact ⟨h _ .self, fun v hv part hpart => h part (.item hv hpart)⟩
  · rintro ⟨hself, hitems⟩ part hpart
    cases hpart with
    | self => exact hself
    | item hv hpart => exact hitems _ hv part hpart

theorem everywhere_toValue_iff {f : Function} :
    f.toValue.Everywhere P ↔
      P f.toValue ∧ f.body.Everywhere P ∧ ∀ v ∈ f.applied, v.Everywhere P := by
  constructor
  · intro h
    exact ⟨h _ .self, fun part hpart => h part (.body hpart),
      fun v hv part hpart => h part (.applied hv hpart)⟩
  · rintro ⟨hself, hbody, happlied⟩ part hpart
    cases hpart with
    | self => exact hself
    | body hpart => exact hbody part hpart
    | applied hv hpart => exact happlied _ hv part hpart

/-- A property of values that looks at their outermost layer and refuses none of these. -/
structure Shallow (P : Value → Prop) : Prop where
  unit : P .unit
  boolean (b : Bool) : P (.boolean b)
  text (s : String) : P (.text s)
  number {n : Int} (h : Number.InRange n) : P (.number n)
  parameter {name : Name} (h : name ∈ Native.parameterNames) : P (.symbol name)
  quoted (v : Value) : P (.quoted v)
  sequence (vs : List Value) : P (.sequence vs)
  /-- A function that has received nothing, or waits for more. -/
  function {f : Function} (h : f.applied = [] ∨ f.applied.length < f.arity) : P f.toValue

namespace Shallow

variable (hP : Shallow P)
include hP

theorem everywhere_quoted {v : Value} : (Value.quoted v).Everywhere P ↔ v.Everywhere P :=
  everywhere_quoted_iff.trans (and_iff_right (hP.quoted v))

theorem everywhere_sequence {vs : List Value} :
    (Value.sequence vs).Everywhere P ↔ ∀ v ∈ vs, v.Everywhere P :=
  everywhere_sequence_iff.trans (and_iff_right (hP.sequence vs))

theorem everywhere_receive {f : Function} {arguments : List Value} (h : f.toValue.Everywhere P)
    (harguments : ∀ v ∈ arguments, v.Everywhere P)
    (hfew : f.applied.length + arguments.length < f.arity) :
    (f.receive arguments).toValue.Everywhere P := by
  obtain ⟨-, hbody, happlied⟩ := everywhere_toValue_iff.1 h
  have hwaits : (f.receive arguments).applied.length < (f.receive arguments).arity := by
    rw [Function.arity_receive, Function.receive, List.length_append]
    exact hfew
  exact everywhere_toValue_iff.2
    ⟨hP.function (.inr hwaits), hbody, List.forall_mem_append.2 ⟨happlied, harguments⟩⟩

theorem everywhere_curried {native : Native} {name : Name} {arguments : List Value}
    (hsymbol : (symbol name).Everywhere P) (harguments : ∀ v ∈ arguments, v.Everywhere P)
    (hfew : arguments.length < native.arity) :
    (native.curried name arguments).toValue.Everywhere P := by
  have hparameters : ∀ e ∈ native.parameters.map symbol, e.Everywhere P := by
    intro e he
    obtain ⟨parameter, hparameter, rfl⟩ := List.mem_map.1 he
    have hmem : parameter ∈ Native.parameterNames := List.mem_of_mem_take hparameter
    exact everywhere_symbol_iff.2 (hP.parameter hmem)
  have hbody : (native.curried name arguments).body.Everywhere P :=
    hP.everywhere_sequence.2 (List.forall_mem_cons.2 ⟨hsymbol, hparameters⟩)
  rw [← native.arity_curried name arguments] at hfew
  exact everywhere_toValue_iff.2 ⟨hP.function (.inr hfew), hbody, harguments⟩

end Shallow

end

end Value

/-- The values in which a property holds everywhere. -/
def ValueClass.everywhere {P : Value → Prop} (hP : Value.Shallow P) : ValueClass where
  Has := Value.Everywhere P
  unit _ hpart := by
    cases hpart
    exact hP.unit
  boolean b _ hpart := by
    cases hpart
    exact hP.boolean b
  text s _ hpart := by
    cases hpart
    exact hP.text s
  number h _ hpart := by
    cases hpart
    exact hP.number h
  quoted_iff := hP.everywhere_quoted
  sequence_iff := hP.everywhere_sequence
  applied h := (Value.everywhere_toValue_iff.1 h).2.2
  body h := .inl (Value.everywhere_toValue_iff.1 h).2.1
  closure hbody _ := Value.everywhere_toValue_iff.2 ⟨hP.function (.inl rfl), hbody, nofun⟩
  receive := hP.everywhere_receive
  curried _ := hP.everywhere_curried

/-- Scopes that bind visible names to values of a class only. The symbols of the class are all
visible, so what is hidden is out of reach. -/
def Invariant.binding (K : ValueClass) (visible : String → Prop)
    (hvisible : ∀ name : Name, K.Has (.symbol name) → visible name.text) : Invariant where
  toValueClass := K
  Holds s := ∀ x, visible x → ∀ v, s.get? x = some v → K.Has v
  initial _ _ _ hv := K.has_of_get?_initial hv
  relabel h _ := h
  bind h _ _ hv _ hx _ hw := K.has_of_get?_bind h hv hx hw
  get? h name hname v hget := h name.text (hvisible name hname) v hget

section

variable {P : Value → Prop} (hP : Value.Shallow P)

/-- Scopes that bind all names to values in which a property holds everywhere. -/
def Invariant.everywhere : Invariant :=
  .binding (.everywhere hP) (fun _ => True) fun _ _ => trivial

include hP in
theorem evaluate_keeps_everywhere {budget : Nat} {s after : Scope} {e v : Value}
    (hs : ∀ x w, s.get? x = some w → w.Everywhere P) (he : e.Everywhere P)
    (hresult : (evaluate budget s e).result = .ok (after, v)) :
    v.Everywhere P ∧ ∀ x w, after.get? x = some w → w.Everywhere P := by
  have hholds : (Invariant.everywhere hP).Holds s := fun x _ w hw => hs x w hw
  obtain ⟨hafter, hv⟩ := (Invariant.everywhere hP).evaluate_keeps hholds he hresult
  exact ⟨hv, fun x w hw => hafter x trivial w hw⟩

end

end MiniLisp
