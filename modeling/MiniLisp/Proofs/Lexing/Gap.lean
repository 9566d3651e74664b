import MiniLisp.Lexeme

/-!
# Gaps

A gap is told one character after another: each either goes on with the gap, inside a comment or
outside, or ends it (`gapStep`). So what stands before a text that is all gap, or after it, does not
change where the gap ends (`gapLength_append`), and a newline brings any gap out of its comment.
-/

namespace MiniLisp

/-- Whether the text after a character of a gap starts inside a comment; `none` where the character
ends the gap. -/
def gapStep (inComment : Bool) (c : Char) : Option Bool :=
  if inComment then some (c ≠ '\n')
  else if Text.isBlank c then some false
  else if c = ';' then some true
  else none

/-- Whether the text after some characters of a gap starts inside a comment; `none` where one of
them ends the gap. -/
def gapAfter (inComment : Bool) (cs : List Char) : Option Bool := cs.foldlM gapStep inComment

variable {inComment after : Bool} {c : Char} {cs gap : List Char}

theorem gapLength_cons (inComment : Bool) (c : Char) (cs : List Char) :
    gapLength inComment (c :: cs) = match gapStep inComment c with
      | some after => gapLength after cs + 1
      | none => 0 := by
  rw [gapLength, gapStep]
  split
  · rfl
  split
  · rfl
  split <;> rfl

theorem gapLength_cons_of_some (h : gapStep inComment c = some after) (cs : List Char) :
    gapLength inComment (c :: cs) = gapLength after cs + 1 := by
  rw [gapLength_cons, h]

theorem gapLength_cons_of_none (h : gapStep inComment c = none) (cs : List Char) :
    gapLength inComment (c :: cs) = 0 := by
  rw [gapLength_cons, h]

-- Inside a comment every character goes on with the gap.
theorem gapLength_comment_ne_zero (c : Char) (cs : List Char) : gapLength true (c :: cs) ≠ 0 := by
  rw [gapLength_cons_of_some rfl]
  exact Nat.succ_ne_zero _

theorem gapAfter_cons (h : gapStep inComment c = some after) (cs : List Char) :
    gapAfter inComment (c :: cs) = gapAfter after cs := by
  rw [gapAfter, List.foldlM_cons, h]
  rfl

theorem gapAfter_cons_of_none (h : gapStep inComment c = none) (cs : List Char) :
    gapAfter inComment (c :: cs) = none := by
  rw [gapAfter, List.foldlM_cons, h]
  rfl

theorem gapLength_append (h : gapAfter inComment gap = some after) (cs : List Char) :
    gapLength inComment (gap ++ cs) = gap.length + gapLength after cs := by
  induction gap generalizing inComment with
  | nil =>
    cases h
    rw [List.nil_append, List.length_nil, Nat.zero_add]
  | cons c gap ih =>
    cases hstep : gapStep inComment c with
    | none =>
      rw [gapAfter_cons_of_none hstep] at h
      cases h
    | some next =>
      rw [gapAfter_cons hstep] at h
      rw [List.cons_append, gapLength_cons_of_some hstep, ih h, List.length_cons]
      omega

/-- The gap at the start of a text is all gap, and after it no other starts. -/
theorem gapAfter_take (inComment : Bool) (cs : List Char) : ∃ after,
    gapAfter inComment (cs.take (gapLength inComment cs)) = some after ∧
      gapLength after (cs.drop (gapLength inComment cs)) = 0 := by
  induction cs generalizing inComment with
  | nil => exact ⟨inComment, rfl, rfl⟩
  | cons c cs ih =>
    cases hstep : gapStep inComment c with
    | none =>
      have hzero := gapLength_cons_of_none hstep cs
      rw [hzero]
      exact ⟨inComment, rfl, hzero⟩
    | some next =>
      rw [gapLength_cons_of_some hstep, List.take_succ_cons, List.drop_succ_cons,
        gapAfter_cons hstep]
      exact ih next

theorem gapLength_drop (inComment : Bool) (cs : List Char) :
    gapLength false (cs.drop (gapLength inComment cs)) = 0 := by
  obtain ⟨after, -, hzero⟩ := gapAfter_take inComment cs
  cases after with
  | false => exact hzero
  | true =>
    cases hrest : cs.drop (gapLength inComment cs) with
    | nil => rfl
    | cons c rest =>
      rw [hrest] at hzero
      exact absurd hzero (gapLength_comment_ne_zero c rest)

-- A text that starts with no gap starts with neither a blank nor a comment.
theorem gapLength_eq_zero_iff :
    gapLength false cs = 0 ↔ ∀ c ∈ cs.head?, Text.isBlank c = false ∧ c ≠ ';' := by
  cases cs with
  | nil => simp [gapLength]
  | cons c cs => by_cases hblank : Text.isBlank c <;> simp [gapLength, hblank]

-- A gap before something else ends outside comments.
theorem gapAfter_take_of_ne_nil (h : cs.drop (gapLength false cs) ≠ []) :
    gapAfter false (cs.take (gapLength false cs)) = some false := by
  obtain ⟨after, hgap, hzero⟩ := gapAfter_take false cs
  cases after with
  | false => exact hgap
  | true =>
    obtain ⟨c, rest, hrest⟩ := List.exists_cons_of_ne_nil h
    rw [hrest] at hzero
    exact absurd hzero (gapLength_comment_ne_zero c rest)

-- A newline ends the comment that a gap may end in.
theorem gapAfter_concat_newline (h : gapAfter false gap = some after) :
    gapAfter false (gap ++ ['\n']) = some false := by
  rw [gapAfter, List.foldlM_append, ← gapAfter, h]
  cases after <;> rfl

/-! ## The place after a gap -/

theorem skipGap_of_le {source : List Char} {position : Nat} (h : position ≤ source.length) :
    skipGap source position = position + gapLength false (source.drop position) := by
  rw [skipGap, Nat.min_eq_left h]

-- From the end of a source on there is nothing to pass over.
theorem skipGap_of_length_le {source : List Char} {position : Nat} (h : source.length ≤ position) :
    skipGap source position = source.length := by
  rw [skipGap, Nat.min_eq_right h, List.drop_eq_nil_of_le h]
  rfl

theorem drop_skipGap (source : List Char) (position : Nat) :
    source.drop (skipGap source position) =
      (source.drop position).drop (gapLength false (source.drop position)) := by
  rcases Nat.le_total position source.length with h | h
  · rw [skipGap_of_le h, List.drop_drop]
  · rw [skipGap_of_length_le h, List.drop_eq_nil_of_le h, List.drop_length,
      List.drop_nil]

theorem skipGap_le (source : List Char) (position : Nat) :
    skipGap source position ≤ source.length := by
  rcases Nat.le_total position source.length with h | h
  · have hgap := gapLength_le false (source.drop position)
    rw [List.length_drop] at hgap
    rw [skipGap_of_le h]
    omega
  · exact Nat.le_of_eq (skipGap_of_length_le h)

end MiniLisp
