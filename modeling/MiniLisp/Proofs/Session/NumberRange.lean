import MiniLisp.Proofs.Evaluation.Origin
import MiniLisp.Proofs.Session.Reachable

/-!
# Numbers stay in range

Every number of a session is a signed integer of 64 bits: the reader makes no other, and a native
that computes another is refused its result. The error then carries the exact result, however large
(`numbers_stay_in_range`).
-/

namespace MiniLisp

namespace Value

/-- Every number that occurs in the value lies in the range. -/
def InRange (v : Value) : Prop := v.Everywhere fun part => ∀ n, part = .number n → Number.InRange n

theorem shallow_inRange : Shallow fun part => ∀ n, part = .number n → Number.InRange n where
  unit := nofun
  boolean _ := nofun
  text _ := nofun
  number h n heq := by
    cases heq
    exact h
  parameter _ := nofun
  quoted _ := nofun
  sequence _ := nofun
  function _ := nofun

end Value

/-- Evaluation keeps numbers in the range: from a scope and an expression with no number out of it
come values with none. The reader yields no such number at all, so the sessions that begin afresh
have none either. Where the range is exceeded, the error carries the exact result of the call that
raised it. -/
theorem numbers_stay_in_range [Host] :
    (∀ (budget : Nat) (s after : Scope) (e v : Value),
      (∀ x w, s.get? x = some w → w.InRange) → e.InRange →
        (evaluate budget s e).result = .ok (after, v) →
          v.InRange ∧ ∀ x w, after.get? x = some w → w.InRange) ∧
    (∀ (r after : Reader) (v : Value), r.read = (.ok v, after) → v.InRange) ∧
    (∀ r : Reader, ∀ v ∈ r.readAll.values, v.InRange) ∧
    (∀ s : Session, s.Reachable → (∀ x w, s.scope.get? x = some w → w.InRange) ∧
      ∀ source v, (s.eval source).2.result = .ok v → v.InRange) ∧
    ∀ (budget : Nat) (s : Scope) (e : Value) (context : String) (n : Int),
      (evaluate budget s e).result = .error (.overflow context n) →
        ¬ Number.InRange n ∧ ∃ budget' t items,
          Involves budget s e (budget' + 1) t (.sequence items) ∧
            FormComputes (evaluate budget') t items context n := by
  have hsymbol : ∀ name n, Value.symbol name = .number n → Number.InRange n := nofun
  have hread : ∀ name, (ValueClass.everywhere Value.shallow_inRange).Has (.symbol name) :=
    has_symbol_everywhere Value.shallow_inRange hsymbol
  refine ⟨?_, ?_, ?_, ?_, ?_⟩
  · intro budget s after e v hs he hresult
    exact evaluate_keeps_everywhere Value.shallow_inRange hs he hresult
  · intro r after v hv
    exact ValueClass.has_of_read hread hv
  · intro r v hv
    exact ValueClass.has_of_mem_readAll hread r v hv
  · intro s hs
    exact hs.everywhere Value.shallow_inRange hsymbol
  · intro budget s e context n herror
    exact evaluate_overflow herror

/-- The scope binds a function that doubles. It has room for 21, but not for the greatest number. -/
theorem numbers_stay_in_range_doubling :
    ∃ (s after : Scope) (small large : Value),
      (evaluate 2 s small).result = .ok (after, .number 42) ∧
      (∀ x w, after.get? x = some w → w.InRange) ∧
      (evaluate 2 s large).result = .error (.overflow "*" 18446744073709551614) ∧
      ¬ Number.InRange 18446744073709551614 ∧
      (∃ r after : Reader, r.read = (.ok (.number 7), after) ∧ (Value.number 7).InRange) ∧
      (∀ v ∈ (Reader.ofString "(1 '2) -3 )").readAll.values, v.InRange) ∧
      ∀ x w, (({} : Session).eval "(def! x 1)").1.scope.get? x = some w → w.InRange := by
  let name : Name := ⟨"double", by decide⟩
  let body : Value := .sequence [.symbol ⟨"*", by decide⟩, .symbol ⟨"n", by decide⟩, .number 2]
  let double : Function := { parameters := ["n"], body := body }
  let s : Scope := Scope.initial.bind name.text double.toValue
  let small : Value := callForm name [.number 21]
  let large : Value := callForm name [.symbol ⟨"MAX_INT", by decide⟩]
  let K : Invariant := .everywhere Value.shallow_inRange
  have hsymbol : ∀ name, K.Has (.symbol name) :=
    has_symbol_everywhere Value.shallow_inRange nofun
  have hbody : K.Has body :=
    K.cons (hsymbol _) (K.cons (hsymbol _) (K.cons (K.number (by decide)) K.nil))
  have hsmall : K.Has small := K.cons (hsymbol name) (K.cons (K.number (by decide)) K.nil)
  have hs : ∀ x w, s.get? x = some w → w.InRange := fun x w hw =>
    K.bind K.initial name.text (K.closure hbody ["n"]) x trivial w hw
  have hok : (evaluate 2 s small).result = .ok (s, .number 42) := rfl
  have herror : (evaluate 2 s large).result = .error (.overflow "*" 18446744073709551614) := rfl
  let seven : Token := ⟨⟨.number, ['7'], by decide⟩, 0⟩
  let r : Reader := ⟨['7'], [seven], none, 0⟩
  have hread : r.read = (.ok (.number 7), r.after seven []) := rfl
  obtain ⟨hevaluate, hreadOne, hreadAll, hsession, hoverflow⟩ := numbers_stay_in_range
  exact ⟨s, s, small, large, hok, (hevaluate 2 s s small _ hs hsmall hok).2, herror,
    (hoverflow 2 s large _ _ herror).1, ⟨r, _, hread, hreadOne r _ _ hread⟩, hreadAll _,
    (hsession _ (.eval .fresh "(def! x 1)")).1⟩

end MiniLisp
