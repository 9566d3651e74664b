import MiniLisp.Value.Agreement

/-!
# Agreement is equality up to booleans

Two values agree if they are the same once every boolean in them, at any depth, is replaced by the
number it counts as (`agrees_iff`). Agreement compares the constructors of two values pair by pair;
the replacement looks at one value alone, and so makes agreement an equivalence.
-/

namespace MiniLisp.Value

mutual

/-- The value with the number 1 or 0 in place of every boolean. -/
def withoutBooleans : Value → Value
  | .boolean b => .number (if b then 1 else 0)
  | .quoted inner => .quoted inner.withoutBooleans
  | .sequence items => .sequence (withoutBooleansEach items)
  | .function parameters body applied =>
    .function parameters body.withoutBooleans (withoutBooleansEach applied)
  | v => v

def withoutBooleansEach : List Value → List Value
  | [] => []
  | v :: vs => v.withoutBooleans :: withoutBooleansEach vs

end

mutual

theorem agrees_iff (u v : Value) : u.agrees v ↔ u.withoutBooleans = v.withoutBooleans := by
  match u with
  | .quoted inner =>
    cases v with
    | quoted inner' =>
      rw [agrees, agrees_iff inner inner']
      simp [withoutBooleans]
    | _ => simp [agrees, asNumber?, withoutBooleans]
  | .sequence items =>
    cases v with
    | sequence items' =>
      rw [agrees, agreeEach_iff items items']
      simp [withoutBooleans]
    | _ => simp [agrees, asNumber?, withoutBooleans]
  | .function parameters body applied =>
    cases v with
    | function parameters' body' applied' =>
      simp only [agrees, withoutBooleans, Bool.and_eq_true, beq_iff_eq, function.injEq,
        agrees_iff body body', agreeEach_iff applied applied', and_assoc]
    | _ => simp [agrees, asNumber?, withoutBooleans]
  | .unit | .boolean _ | .number _ | .text _ | .symbol _ =>
    cases v <;> simp [agrees, asNumber?, withoutBooleans]

theorem agreeEach_iff (us vs : List Value) :
    agreeEach us vs ↔ withoutBooleansEach us = withoutBooleansEach vs := by
  match us, vs with
  | [], [] => simp [agreeEach]
  | u :: us, v :: vs =>
    rw [agreeEach, Bool.and_eq_true, agrees_iff u v, agreeEach_iff us vs]
    simp [withoutBooleansEach]
  | [], _ :: _ | _ :: _, [] => simp [agreeEach, withoutBooleansEach]

end

theorem equivalence_agrees : Equivalence fun u v : Value => u.agrees v where
  refl u := (agrees_iff u u).2 rfl
  symm h := (agrees_iff _ _).2 ((agrees_iff _ _).1 h).symm
  trans h h' := (agrees_iff _ _).2 (((agrees_iff _ _).1 h).trans ((agrees_iff _ _).1 h'))

end MiniLisp.Value
