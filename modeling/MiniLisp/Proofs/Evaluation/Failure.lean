import MiniLisp.Proofs.Evaluation.Raises

/-!
# Errors that a run may end in

Rules for what can be said of every error of a run (`Run.FailsOnlyWith`), and what they give for
coercions, parameter lists and expressions that are no lists. A property that all errors of these
have is asked for at no more than the errors that they raise.
-/

namespace MiniLisp

/-! ## The errors of a run -/

namespace Run

variable {α β : Type} {P Q : Error → Prop} {x : Run α}

/-- Whatever error the run ends in has a property. -/
def FailsOnlyWith (x : Run α) (Q : Error → Prop) : Prop := ∀ e, x.result = .error e → Q e

theorem ofExcept_bind (result : Except Error α) (f : α → Except Error β) :
    ofExcept (result >>= f) = ofExcept result >>= fun a => ofExcept (f a) := by
  cases result <;> rfl

namespace FailsOnlyWith

theorem pure (a : α) : (Pure.pure a : Run α).FailsOnlyWith Q := nofun

theorem print (line : String) : (Run.print line).FailsOnlyWith Q := nofun

theorem fail {e : Error} (h : Q e) : (Run.fail e : Run α).FailsOnlyWith Q := by
  intro e' he'
  cases he'
  exact h

theorem bind {f : α → Run β} (hx : x.FailsOnlyWith Q)
    (hf : ∀ a, x.result = .ok a → (f a).FailsOnlyWith Q) : (x >>= f).FailsOnlyWith Q := by
  rcases x with ⟨out, e | a⟩
  · intro e' he'
    cases he'
    exact hx e rfl
  · intro e' he'
    rw [bind_ok] at he'
    exact hf a rfl e' he'

theorem mapM {f : α → Except Error β} {as : List α}
    (h : ∀ a ∈ as, (ofExcept (f a)).FailsOnlyWith Q) : (ofExcept (as.mapM f)).FailsOnlyWith Q := by
  induction as with
  | nil => exact .pure _
  | cons a as ih =>
    obtain ⟨ha, has⟩ := List.forall_mem_cons.1 h
    rw [List.mapM_cons, ofExcept_bind]
    refine .bind ha fun b _ => ?_
    rw [ofExcept_bind]
    exact .bind (ih has) fun bs _ => .pure _

theorem mapError {f : Error → Error} (h : x.FailsOnlyWith P) (hf : ∀ e, P e → Q (f e)) :
    (x.mapError f).FailsOnlyWith Q := by
  rcases x with ⟨out, e | a⟩
  · intro e' he'
    cases he'
    exact hf e (h e rfl)
  · exact nofun

theorem mono (h : x.FailsOnlyWith P) (hPQ : ∀ e, P e → Q e) : x.FailsOnlyWith Q :=
  fun e he => hPQ e (h e he)

end FailsOnlyWith

end Run

section

variable {Q : Error → Prop}

theorem coerceArgument_fails {α : Type} {coerce : Value → Except Mismatch α} {k : Kind}
    (hcoerce : CoercesTo coerce k) {context : Name} {position : Nat} {v : Value}
    (hown : ¬ v.Fits k → Q (.argumentKind context.text ⟨k, v.kind⟩ position)) :
    (Run.ofExcept (coerceArgument coerce context position v)).FailsOnlyWith Q := by
  intro e he
  unfold Run.ofExcept coerceArgument at he
  cases hv : coerce v with
  | ok a =>
    rw [hv] at he
    cases he
  | error m =>
    obtain ⟨hfits, rfl⟩ := hcoerce v m hv
    rw [hv] at he
    cases he
    exact hown hfits

theorem splitFirst_fails {s : Scope} {v : Value}
    (hkind : ¬ v.Fits .sequence → Q (.argumentKind s.label.text ⟨.sequence, v.kind⟩ 0))
    (hempty : v = .sequence [] → Q (.emptySequence s.label.text)) :
    (Run.ofExcept (Native.splitFirst s v)).FailsOnlyWith Q := by
  unfold Native.splitFirst
  rw [Run.ofExcept_bind]
  refine .bind (coerceArgument_fails toSequence_coercesTo hkind) fun items hitems => ?_
  obtain rfl := coerceArgument_toSequence_eq_ok hitems
  cases items with
  | nil => exact .fail (hempty rfl)
  | cons item items => exact .pure _

theorem closure_fails {context : Name} {position : Nat} {parameters body : Value}
    (hown : ∀ m, SpecialForm.BadParameters parameters m →
      Q (.argumentKind context.text m position)) :
    (Run.ofExcept (SpecialForm.closure context position parameters body)).FailsOnlyWith Q := by
  unfold SpecialForm.closure
  rw [Run.ofExcept_bind]
  refine .bind (coerceArgument_fails toSequence_coercesTo fun h => hown _ (.list h))
    fun items hitems => ?_
  obtain rfl := coerceArgument_toSequence_eq_ok hitems
  rw [Run.ofExcept_bind]
  refine .bind (.mapM fun item hitem => ?_) fun names _ => .pure _
  exact coerceArgument_fails toSymbolName_coercesTo fun h => hown _ (.item hitem h)

theorem checkRange_fails {context : String} {n : Int}
    (h : ¬ Number.InRange n → Q (.overflow context n)) :
    (Run.ofExcept (Value.checkRange context (.number n))).FailsOnlyWith Q := by
  intro e he
  unfold Run.ofExcept Value.checkRange at he
  by_cases hrange : Number.InRange n
  · simp only [if_pos hrange] at he
    cases he
  · simp only [if_neg hrange] at he
    cases he
    exact h hrange

end

-- What is not a list has a value where it stands, or is an unbound name.
theorem evaluate_cases_of_ne_sequence {e : Value} (he : ¬ ∃ items, e = .sequence items)
    (budget : Nat) (s : Scope) :
    (∃ v, evaluate budget s e = pure (s, v)) ∨
      ∃ name : Name, e = .symbol name ∧ s.get? name.text = none ∧
        evaluate budget s e = Run.fail (.unbound name.text) := by
  cases e with
  | sequence items => exact absurd ⟨items, rfl⟩ he
  | symbol name =>
    simp only [evaluate]
    cases hname : s.get? name.text with
    | none => exact .inr ⟨name, rfl, hname, rfl⟩
    | some v => exact .inl ⟨v, rfl⟩
  | quoted v => exact .inl ⟨v, by simp only [evaluate]⟩
  | _ =>
    simp only [evaluate]
    exact .inl ⟨_, rfl⟩

theorem evaluate_fails_of_ne_sequence {Q : Error → Prop} {e : Value}
    (he : ¬ ∃ items, e = .sequence items) {budget : Nat} {s : Scope}
    (hown : ∀ error, Raises budget s e error → Q error) :
    (evaluate budget s e).FailsOnlyWith Q := by
  obtain ⟨v, hv⟩ | ⟨name, rfl, hunbound, hname⟩ := evaluate_cases_of_ne_sequence he budget s
  · rw [hv]
    exact .pure _
  · rw [hname]
    exact .fail (hown _ (.unbound hunbound))

end MiniLisp
