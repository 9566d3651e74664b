import MiniLisp.Proofs.Lexing.Token

/-!
# Tokens and the text after them

The tokens at the start of a text depend on what follows them by one character at most. So the text
they take up can be cut off and set before another text that lends them no more, and they are its
first tokens (`lexFrom_eq_append`). A newline after a whole text is always such another text
(`lexFrom_newline_append`).
-/

namespace MiniLisp

/-- The place after some tokens that follow a place: the end of the last one. -/
def stopAfter (position : Nat) : List Token → Nat
  | [] => position
  | t :: ts => stopAfter t.stop ts

/-- At `position` the text `xs` is cut into the tokens `ts`, as long as what follows lends it no
more than `ys` does. -/
def TakenUp (position : Nat) (xs : List Char) (ts : List Token) (ys : List Char) : Prop :=
  ∀ zs, LendsNoMore zs ys →
    lexFrom position (xs ++ zs) = (lexFrom (position + xs.length) zs).prepend ts

namespace TakenUp

variable {position : Nat} {xs ys : List Char} {ts : List Token}

theorem nil (position : Nat) (ys : List Char) : TakenUp position [] [] ys := fun _ _ => rfl

theorem stop_cons {gap : List Char} {t : Token} (h : t.start = position + gap.length)
    (xs : List Char) : t.stop + xs.length = position + (gap ++ (t.chars ++ xs)).length := by
  rw [List.length_append, List.length_append, Token.stop, h]
  omega

-- One token more at the start, with the gap before it.
theorem cons {gap : List Char} {t : Token} (hgap : gapAfter false gap = some false)
    (hstart : t.start = position + gap.length)
    (hfirst : Lexeme.first? (t.chars ++ (xs ++ ys)) = some t.toLexeme)
    (h : TakenUp t.stop xs ts ys) : TakenUp position (gap ++ (t.chars ++ xs)) (t :: ts) ys := by
  intro zs hzs
  have hfirst' := Lexeme.first?_of_lendsNoMore hfirst (hzs.append xs)
  rw [List.append_assoc, List.append_assoc, lexFrom_gap_append hgap, lexFrom_of_first? hfirst',
    List.drop_left, ← hstart, ← Token.stop, h zs hzs, Lexing.prepend_prepend, stop_cons hstart]
  rfl

-- Tokens take up some text.
theorem length_pos (h : TakenUp position xs ts ys) (hts : ts ≠ []) : 0 < xs.length := by
  rw [List.length_pos_iff]
  rintro rfl
  have hnone := congrArg Lexing.tokens (h [] (delimited_nil.lendsNoMore ys))
  rw [List.append_nil, lexFrom_nil] at hnone
  exact hts (List.append_eq_nil_iff.1 hnone.symm).1

end TakenUp

/-- The text of the first tokens can be cut off from the text of the others, and takes them up
wherever it stands. -/
theorem lexFrom_eq_append {position : Nat} {cs : List Char} {ts us : List Token}
    {e : Option ReadError} (h : lexFrom position cs = ⟨ts ++ us, e⟩) : ∃ xs ys, cs = xs ++ ys ∧
      stopAfter position ts = position + xs.length ∧
      lexFrom (position + xs.length) ys = ⟨us, e⟩ ∧ TakenUp position xs ts ys := by
  induction ts generalizing position cs with
  | nil => exact ⟨[], cs, rfl, rfl, h, .nil position cs⟩
  | cons t ts ih =>
    obtain ⟨gap, rest, rfl, hgap, hstart, hfirst, hrest⟩ := lexFrom_eq_cons h
    obtain ⟨xs, ys, rfl, hstop, hys, htaken⟩ := ih hrest
    refine ⟨gap ++ (t.chars ++ xs), ys, by simp only [List.append_assoc], ?_, ?_,
      htaken.cons hgap hstart hfirst⟩
    · rw [stopAfter, hstop, TakenUp.stop_cons hstart]
    · rw [← TakenUp.stop_cons hstart, hys]

/-- A newline after a text that is lexed to its end brings its tokens to an end, and the tokens of
what follows come after them. -/
theorem lexFrom_newline_append {position : Nat} {cs : List Char} {ts : List Token}
    (h : lexFrom position cs = ⟨ts, none⟩) (ds : List Char) : lexFrom position (cs ++ '\n' :: ds) =
      (lexFrom (position + (cs.length + 1)) ds).prepend ts := by
  rw [← List.append_nil ts] at h
  obtain ⟨xs, gap, rfl, -, hgap, htaken⟩ := lexFrom_eq_append h
  -- After the last token there is a gap, which may end in a comment.
  have hall := lexFrom_eq_nil_iff.1 hgap
  obtain ⟨after, hafter, -⟩ := gapAfter_take false gap
  rw [hall, List.take_length] at hafter
  have hlends : LendsNoMore (gap ++ '\n' :: ds) gap := by
    have hdelim : Delimited ('\n' :: ds) := delimited_cons (by decide) ds
    have happend := (hdelim.lendsNoMore []).append gap
    rwa [List.append_nil] at happend
  rw [List.append_assoc, htaken _ hlends]
  have hnewline := lexFrom_gap_append (gapAfter_concat_newline hafter) (position + xs.length) ds
  rw [List.append_assoc, List.singleton_append] at hnewline
  rw [hnewline, List.length_append, List.length_append, List.length_singleton]
  simp only [Nat.add_assoc]

end MiniLisp
