import MiniLisp.Proofs.Evaluation.Depth
import MiniLisp.Proofs.Evaluation.Occurrence
import MiniLisp.Proofs.Reader.Grammar
import MiniLisp.Proofs.Session.ReadingAhead

/-!
# The states of a session

The values that a reader gives are in every class of values that has all symbols
(`ValueClass.has_of_mem_readAll`). So whatever evaluation keeps on such a class holds of the scope
of a session in every state that inputs and resets lead to, and of the values that inputs are
answered with (`Session.Reachable.holds`, `Session.eval_keeps`).
-/

namespace MiniLisp

/-! ## What the reader gives -/

namespace ValueClass

variable [Host] {K : ValueClass}

theorem has_of_atom (hsymbol : ∀ name, K.Has (.symbol name)) {t : Token} {v : Value}
    (h : t.atom = .ok v) : K.Has v := by
  obtain ⟨-, n, hn, rfl⟩ | ⟨-, s, rfl⟩ | ⟨-, ⟨-, rfl⟩ | ⟨-, rfl⟩ | ⟨-, rfl⟩⟩ := t.atom_ok_cases h
  · exact K.number hn
  · exact K.text s
  · exact K.boolean true
  · exact K.boolean false
  · exact hsymbol _

mutual

theorem has_of_expression (hsymbol : ∀ name, K.Has (.symbol name)) {ts : List Token} {v : Value}
    (h : Expression ts v) : K.Has v := by
  match h with
  | .atom _ hv => exact has_of_atom hsymbol hv
  | .quoted _ h => exact K.quoted_iff.2 (has_of_expression hsymbol h)
  | .list _ _ h => exact K.sequence_iff.2 (has_of_expressions hsymbol h)

theorem has_of_expressions (hsymbol : ∀ name, K.Has (.symbol name)) {ts : List Token}
    {vs : List Value} (h : Expressions ts vs) : ∀ v ∈ vs, K.Has v := by
  match h with
  | .nil => exact nofun
  | .cons h hs =>
    exact List.forall_mem_cons.2 ⟨has_of_expression hsymbol h, has_of_expressions hsymbol hs⟩

end

theorem has_of_read (hsymbol : ∀ name, K.Has (.symbol name)) {r after : Reader} {v : Value}
    (h : r.read = (.ok v, after)) : K.Has v := by
  obtain ⟨ts, rest, -, hexpression, -⟩ := read_sound h
  exact has_of_expression hsymbol hexpression

-- Also of the values that come before an error.
theorem has_of_mem_readAll (hsymbol : ∀ name, K.Has (.symbol name)) (r : Reader) :
    ∀ v ∈ r.readAll.values, K.Has v := by
  fun_induction Reader.readAll r with
  | case1 r e _ he => exact List.forall_mem_nil _
  | case2 r ht _ => exact List.forall_mem_nil _
  | case3 r _ _ _ e after _ => exact List.forall_mem_nil _
  | case4 r _ _ _ v after hread others ih =>
    exact List.forall_mem_cons.2 ⟨has_of_read hsymbol hread, ih⟩

end ValueClass

/-! ## Inputs -/

namespace Session

theorem evalEach_keeps (ι : Invariant) {ending : Value → Except Error Value}
    (hending : ∀ v w, ending v = .ok w → w = v) {s : Session} {last : Value} {es : List Value}
    (hs : ι.Holds s.scope) (hlast : ι.Has last) (hes : ∀ e ∈ es, ι.Has e) :
    ι.Holds (evalEach ending s last es).1.scope ∧
      ∀ v, (evalEach ending s last es).2.result = .ok v → ι.Has v := by
  induction es generalizing s last with
  | nil =>
    refine ⟨hs, fun v hv => ?_⟩
    rw [hending last v hv]
    exact hlast
  | cons e es ih =>
    obtain ⟨he, hes⟩ := List.forall_mem_cons.1 hes
    cases hstep : (evaluateWithin s.limit s.scope e).result with
    | error error =>
      rw [evalEach_cons_of_error hstep]
      exact ⟨hs, nofun⟩
    | ok result =>
      obtain ⟨scope, v⟩ := result
      have hresult : (evaluate s.limit s.scope e).result = .ok (scope, v) :=
        Run.mapError_result_eq_ok.1 hstep
      obtain ⟨hscope, hv⟩ := ι.evaluate_keeps hs he hresult
      rw [evalEach_cons_of_ok hstep]
      exact ih hscope hv hes

variable [Host]

/-- The states of a session after any inputs and resets. The limit is a setting of the surroundings
and may change at any time. -/
inductive Reachable : Session → Prop
  | fresh : Reachable {}
  | eval {s : Session} (h : Reachable s) (source : String) : Reachable (s.eval source).1
  | reset {s : Session} (h : Reachable s) : Reachable s.reset
  | limit {s : Session} (h : Reachable s) (limit : Nat) : Reachable { s with limit := limit }

variable {ι : Invariant} (hsymbol : ∀ name, ι.Has (.symbol name))
include hsymbol

theorem eval_keeps {s : Session} (hs : ι.Holds s.scope) (source : String) :
    ι.Holds (s.eval source).1.scope ∧ ∀ v, (s.eval source).2.result = .ok v → ι.Has v := by
  rw [eval_eq]
  refine evalEach_keeps ι (fun v w hw => ?_) hs ι.unit (ValueClass.has_of_mem_readAll hsymbol _)
  unfold endingOf at hw
  split at hw
  · cases hw
  · cases hw
    rfl

theorem Reachable.holds {s : Session} (h : s.Reachable) : ι.Holds s.scope := by
  induction h with
  | fresh => exact ι.initial
  | eval _ source ih => exact (eval_keeps hsymbol ih source).1
  | reset _ _ => exact ι.initial
  | limit _ limit ih => exact ih

end Session

section

variable {P : Value → Prop} (hP : Value.Shallow P) (hsymbol : ∀ name, P (.symbol name))
include hP hsymbol

theorem has_symbol_everywhere (name : Name) : (ValueClass.everywhere hP).Has (.symbol name) :=
  Value.everywhere_symbol_iff.2 (hsymbol name)

/-- A property that tells no symbols apart holds everywhere in what a session binds and answers. -/
theorem Session.Reachable.everywhere [Host] {s : Session} (h : s.Reachable) :
    (∀ x w, s.scope.get? x = some w → w.Everywhere P) ∧
      ∀ source v, (s.eval source).2.result = .ok v → v.Everywhere P := by
  have hall : ∀ name, (Invariant.everywhere hP).Has (.symbol name) :=
    has_symbol_everywhere hP hsymbol
  have hscope : (Invariant.everywhere hP).Holds s.scope := h.holds hall
  exact ⟨fun x w hw => hscope x trivial w hw, fun source => (eval_keeps hall hscope source).2⟩

end

end MiniLisp
