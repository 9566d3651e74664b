import MiniLisp.Error
import MiniLisp.Value.Agreement

/-!
Scopes: what names are bound to, and the label of the form under evaluation.

A scope is a chain of frames, newest first. Binding adds a frame and changes none, so an older
scope stays valid beside the newer one. The label serves diagnostics only.
-/

namespace MiniLisp

structure Scope where
  label : Name
  frames : List (String × Value)

namespace Scope

/-- The label outside every form. -/
def mainLabel : Name := { text := "main" }

/-- The label of a call whose head is not a name. -/
def anonymousLabel : Name := { text := "anonymous" }

def empty (label : Name := mainLabel) : Scope := ⟨label, []⟩

/-- The scope in which `name` is bound to `value`, shadowing what it was bound to before. -/
def bind (s : Scope) (name : String) (value : Value) : Scope :=
  { s with frames := (name, value) :: s.frames }

def bindAll (s : Scope) (pairs : List (String × Value)) : Scope :=
  pairs.foldl (fun s pair => s.bind pair.1 pair.2) s

/-- The same bindings under another label. -/
def relabel (s : Scope) (label : Name) : Scope := { s with label := label }

/-- The value that a name was most recently bound to. -/
def get? (s : Scope) (name : String) : Option Value := s.frames.lookup name

/-- Adds a frame at the end, unless its name is there. -/
def setDefault (seen : List (String × Value)) (frame : String × Value) : List (String × Value) :=
  if seen.any (·.1 == frame.1) then seen else seen ++ [frame]

/-- The frames that no newer frame shadows, newest first. -/
def visible (frames : List (String × Value)) : List (String × Value) := frames.foldl setDefault []

/-- Every bound name once, with its value, in the order in which the names were last bound. -/
def bindings (s : Scope) : List (String × Value) := (visible s.frames).reverse

def size (s : Scope) : Nat := s.bindings.length

def isEmpty (s : Scope) : Bool := s.frames.isEmpty

/-- The scope that every session starts from. -/
def initial : Scope :=
  (empty.bind "MIN_INT" (.number Number.least)).bind "MAX_INT" (.number Number.greatest)

/-- A scope as text: its bindings in order. -/
def render (s : Scope) : String :=
  "\x7b " ++ ", ".intercalate (s.bindings.map fun pair => pair.1 ++ ": " ++ pair.2.render) ++
    " \x7d"

def inspect (s : Scope) : String := "<Scope " ++ s.label.text ++ ": " ++ s.render ++ ">"

/-- Whether two scopes have as many bindings, and each name of the first is bound to agreeing
values. -/
def bindingsAgree (s t : Scope) : Bool :=
  s.size == t.size && s.bindings.all fun pair => (t.bindings.lookup pair.1).any pair.2.agrees

/-- Whether two scopes count as equal: the same label and the same names, bound to values that
agree, in whatever order. -/
def agrees (s t : Scope) : Bool := s.label == t.label && s.bindingsAgree t

def labelNamed (label : String) : Except Error Name :=
  match Name.ofString? label with
  | some label => .ok label
  | none => .error .emptyScopeLabel

@[simp]
theorem label_bind (s : Scope) (name : String) (value : Value) :
    (s.bind name value).label = s.label := rfl

@[simp]
theorem frames_bind (s : Scope) (name : String) (value : Value) :
    (s.bind name value).frames = (name, value) :: s.frames := rfl

@[simp]
theorem label_relabel (s : Scope) (label : Name) : (s.relabel label).label = label := rfl

@[simp]
theorem frames_relabel (s : Scope) (label : Name) : (s.relabel label).frames = s.frames := rfl

@[simp]
theorem relabel_relabel (s : Scope) (label label' : Name) :
    (s.relabel label).relabel label' = s.relabel label' := rfl

theorem get?_bind (s : Scope) (name name' : String) (value : Value) :
    (s.bind name value).get? name' = if name' = name then some value else s.get? name' := by
  by_cases h : name' = name
  · simp [get?, h]
  · simp [get?, List.lookup_cons, beq_eq_false_iff_ne.2 h, h]

-- Frames are added behind those that are there, unless these shadow them.
theorem foldl_setDefault (seen frames : List (String × Value)) : frames.foldl setDefault seen =
    seen ++ (visible frames).filter fun pair => !seen.any (·.1 == pair.1) := by
  unfold visible
  induction frames generalizing seen with
  | nil => simp
  | cons frame frames ih =>
    rw [List.foldl_cons, List.foldl_cons, ih, ih (setDefault [] frame)]
    have hfirst : setDefault [] frame = [frame] := rfl
    rw [hfirst, List.filter_append, List.filter_filter]
    by_cases h : seen.any (·.1 == frame.1)
    · have hseen : setDefault seen frame = seen := if_pos h
      rw [hseen, List.filter_cons_of_neg (by simp only [h]; exact nofun), List.filter_nil,
        List.nil_append]
      refine congrArg _ (List.filter_congr fun pair _ => ?_)
      -- A frame that no name in `seen` shadows has another name than the one that is there.
      by_cases hname : frame.1 = pair.1
      · rw [← hname, h]
        rfl
      · simp [hname]
    · have hseen : setDefault seen frame = seen ++ [frame] := if_neg h
      rw [hseen, List.filter_cons_of_pos (by simp only [h]; rfl), List.filter_nil,
        List.append_assoc]
      refine congrArg (fun rest => seen ++ ([frame] ++ rest)) (List.filter_congr fun pair _ => ?_)
      simp

theorem visible_cons (name : String) (value : Value) (older : List (String × Value)) :
    visible ((name, value) :: older) =
      (name, value) :: (visible older).filter (·.1 ≠ name) := by
  have hfold := foldl_setDefault [(name, value)] older
  have hfirst : visible ((name, value) :: older) = older.foldl setDefault [(name, value)] := rfl
  rw [hfirst, hfold, List.singleton_append]
  refine congrArg _ (List.filter_congr fun pair _ => ?_)
  rw [List.any_cons, List.any_nil, Bool.or_false, Bool.beq_comm, decide_not]
  rfl

theorem bindings_bind (s : Scope) (name : String) (value : Value) :
    (s.bind name value).bindings = s.bindings.filter (·.1 ≠ name) ++ [(name, value)] := by
  simp [bindings, visible_cons]

end Scope

end MiniLisp
