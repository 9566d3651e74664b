import MiniLisp.Proofs.Lexing.Longest
import MiniLisp.Proofs.Lexing.Token

/-!
# How tokens tile a source

From a place on a source is spacing, a token, and then the same again from the end of the token,
until nothing but a gap is left or no word of any class starts (`Tiled`). What the tokens are is
said by the source alone, through `Spacing` and `Lexeme.IsFirst`, and it leaves no choice: the
lexing of a source is the one that tiles it (`tiled_iff`).
-/

namespace MiniLisp

/-! ## Spacing -/

/-- What separates tokens: blanks, and comments that each end with their line. -/
inductive Spacing : List Char → Prop
  | nil : Spacing []
  | blank {c : Char} {cs : List Char} (hc : Text.isBlank c) (h : Spacing cs) : Spacing (c :: cs)
  | comment {body cs : List Char} (hbody : '\n' ∉ body) (h : Spacing cs) :
      Spacing (';' :: (body ++ '\n' :: cs))

theorem gapAfter_comment {body : List Char} (hbody : '\n' ∉ body) (cs : List Char) :
    gapAfter true (body ++ '\n' :: cs) = gapAfter false cs := by
  induction body with
  | nil => exact gapAfter_cons rfl cs
  | cons c body ih =>
    rw [List.mem_cons, not_or] at hbody
    have hstep : gapStep true c = some true := by simp [gapStep, Ne.symm hbody.1]
    rw [List.cons_append, gapAfter_cons hstep, ih hbody.2]

-- A comment that is left has been left by the newline at the end of its line.
theorem exists_of_gapAfter_true {cs : List Char} (h : gapAfter true cs = some false) :
    ∃ body rest, '\n' ∉ body ∧ cs = body ++ '\n' :: rest ∧ gapAfter false rest = some false := by
  induction cs with
  | nil => cases h
  | cons c cs ih =>
    by_cases hc : c = '\n'
    · subst hc
      exact ⟨[], cs, List.not_mem_nil, rfl, h⟩
    · have hstep : gapStep true c = some true := by simp [gapStep, hc]
      rw [gapAfter_cons hstep] at h
      obtain ⟨body, rest, hbody, rfl, hrest⟩ := ih h
      refine ⟨c :: body, rest, ?_, rfl, hrest⟩
      rw [List.mem_cons, not_or]
      exact ⟨Ne.symm hc, hbody⟩

theorem Spacing.gapAfter_eq {cs : List Char} (h : Spacing cs) : gapAfter false cs = some false := by
  induction h with
  | nil => rfl
  | @blank c cs hc _ ih =>
    have hstep : gapStep false c = some false := by simp [gapStep, hc]
    rw [gapAfter_cons hstep, ih]
  | @comment body cs hbody _ ih =>
    have hstep : gapStep false ';' = some true := by decide
    rw [gapAfter_cons hstep, gapAfter_comment hbody, ih]

theorem spacing_of_gapAfter {cs : List Char} (h : gapAfter false cs = some false) : Spacing cs := by
  -- A comment takes more than its first character, so the induction is on the length.
  induction hlength : cs.length using Nat.strong_induction_on generalizing cs with
  | _ n ih =>
    cases cs with
    | nil => exact .nil
    | cons c cs =>
      rw [List.length_cons] at hlength
      by_cases hblank : Text.isBlank c
      · have hstep : gapStep false c = some false := by simp [gapStep, hblank]
        rw [gapAfter_cons hstep] at h
        exact .blank hblank (ih cs.length (by omega) h rfl)
      · by_cases hc : c = ';'
        · subst hc
          have hstep : gapStep false ';' = some true := by decide
          rw [gapAfter_cons hstep] at h
          obtain ⟨body, rest, hbody, rfl, hrest⟩ := exists_of_gapAfter_true h
          rw [List.length_append, List.length_cons] at hlength
          exact .comment hbody (ih rest.length (by omega) hrest rfl)
        · have hstep : gapStep false c = none := by simp [gapStep, hblank, hc]
          rw [gapAfter_cons_of_none hstep] at h
          cases h

/-! ## Tilings -/

/-- The token that a source has next from a place on: spacing and then the first lexeme. -/
structure Token.Follows (t : Token) (source : List Char) (position : Nat) : Prop where
  start_eq : t.start = skipGap source position
  spacing : Spacing ((source.drop position).take (t.start - position))
  isFirst : t.toLexeme.IsFirst (source.drop t.start)

/-- The tokens that a source has from a place on, and the error that ends them. -/
inductive Tiled (source : List Char) : Nat → Lexing → Prop
  | finished {position : Nat} (h : skipGap source position = source.length) :
      Tiled source position ⟨[], none⟩
  | stuck {position : Nat} {c : Char} {rest : List Char}
      (hrest : source.drop (skipGap source position) = c :: rest)
      (hnone : ∀ l : Lexeme, l.WellSpelled → ¬ l.chars <+: c :: rest) :
      Tiled source position ⟨[], some ⟨lexFault c, skipGap source position⟩⟩
  | token {position : Nat} {t : Token} {ts : List Token} {e : Option ReadError}
      (ht : t.Follows source position) (h : Tiled source t.stop ⟨ts, e⟩) :
      Tiled source position ⟨t :: ts, e⟩

variable {source : List Char} {position : Nat}

-- What is passed over before something else is spacing.
theorem spacing_skipGap (h : source.drop (skipGap source position) ≠ []) :
    Spacing ((source.drop position).take (skipGap source position - position)) := by
  have hle : position ≤ source.length := by
    by_contra hlt
    rw [skipGap_of_length_le (by omega), List.drop_length] at h
    exact h rfl
  rw [drop_skipGap] at h
  rw [skipGap_of_le hle, Nat.add_sub_cancel_left]
  exact spacing_of_gapAfter (gapAfter_take_of_ne_nil h)

theorem tiled_lex (source : List Char) (position : Nat) :
    Tiled source position (lex source position) := by
  obtain ⟨⟨ts, e⟩, hlex⟩ : ∃ lexing, lex source position = lexing := ⟨_, rfl⟩
  rw [hlex]
  induction ts generalizing position with
  | nil =>
    rw [lex_eq] at hlex
    split at hlex
    · cases hlex
      rename_i hrest
      exact .finished (Nat.le_antisymm (skipGap_le source position) (List.drop_eq_nil_iff.1 hrest))
    · rename_i c rest hrest
      split at hlex
      · cases hlex
        exact .stuck hrest (Lexeme.first?_eq_none_iff.1 ‹_›)
      · cases hlex
  | cons t ts ih =>
    rw [lex_eq] at hlex
    split at hlex
    · cases hlex
    · rename_i c rest hrest
      split at hlex
      · cases hlex
      · rename_i l hl
        injection hlex with htokens herror
        injection htokens with ht hts
        subst ht hts herror
        refine .token ⟨rfl, spacing_skipGap ?_, ?_⟩ (ih _ rfl)
        · rw [hrest]
          exact List.cons_ne_nil c rest
        · show l.IsFirst (source.drop (skipGap source position))
          rw [hrest]
          exact Lexeme.isFirst_of_first? hl

/-- The lexing of a source is the one that tiles it. -/
theorem tiled_iff {lexing : Lexing} :
    Tiled source position lexing ↔ lex source position = lexing := by
  constructor
  · intro h
    induction h with
    | finished h => rw [lex_eq, h, List.drop_length]
    | stuck hrest hnone =>
      have hfirst := Lexeme.first?_eq_none_iff.2 hnone
      rw [lex_eq, hrest]
      simp only [hfirst]
    | @token position t ts e ht _ ih =>
      have hfirst := Lexeme.first?_eq_some_iff.2 ht.isFirst
      rw [ht.start_eq] at hfirst
      rw [lex_eq]
      generalize source.drop (skipGap source position) = cs at hfirst
      cases cs with
      | nil => cases hfirst
      | cons c rest =>
        simp only [hfirst]
        rw [← ht.start_eq]
        exact congrArg (Lexing.prepend [t]) ih
  · rintro rfl
    exact tiled_lex source position

end MiniLisp
