import MiniLisp.Proofs.Lexing.Gap
import MiniLisp.Proofs.Lexing.Lexeme
import MiniLisp.Token

/-!
# Tokens of a text

The equations of `lexFrom`: a gap is passed over, and a first lexeme is the first token. From them
follow `lexFrom_append`, on a lexeme before a delimiter, and what the text of a lexing looks like: a
gap, the characters of the first token, and a text with the other tokens (`lexFrom_eq_cons`). So the
tokens of a source from the end of one of its tokens are those that follow it (`lex_stop`).
-/

namespace MiniLisp

/-- A lexing with more tokens before its own. -/
def Lexing.prepend (ts : List Token) (l : Lexing) : Lexing := ⟨ts ++ l.tokens, l.error⟩

theorem Lexing.prepend_prepend (ts us : List Token) (l : Lexing) :
    (l.prepend us).prepend ts = l.prepend (ts ++ us) := by
  simp [prepend]

/-- A text is lexed past its gap, by the first lexeme there. -/
theorem lexFrom_eq (position : Nat) (cs : List Char) : lexFrom position cs =
    match cs.drop (gapLength false cs) with
    | [] => ⟨[], none⟩
    | c :: rest =>
      match Lexeme.first? (c :: rest) with
      | none => ⟨[], some ⟨lexFault c, position + gapLength false cs⟩⟩
      | some l =>
        (lexFrom (position + gapLength false cs + l.chars.length)
          ((c :: rest).drop l.chars.length)).prepend [⟨l, position + gapLength false cs⟩] := by
  rw [lexFrom]
  split <;> rename_i hcs <;> simp only [hcs]
  rfl

theorem lexFrom_nil (position : Nat) : lexFrom position [] = ⟨[], none⟩ := by
  rw [lexFrom_eq]
  rfl

-- At the end of a text the tokens before it are all there are.
theorem prepend_lexFrom_nil (ts : List Token) (position : Nat) :
    (lexFrom position []).prepend ts = ⟨ts, none⟩ := by
  rw [lexFrom_nil, Lexing.prepend, List.append_nil]

theorem lexFrom_drop_gap (position : Nat) (cs : List Char) :
    lexFrom (position + gapLength false cs) (cs.drop (gapLength false cs)) =
      lexFrom position cs := by
  rw [lexFrom_eq, lexFrom_eq position, gapLength_drop, Nat.add_zero, List.drop_zero]

theorem lexFrom_gap_append {gap : List Char} (h : gapAfter false gap = some false) (position : Nat)
    (cs : List Char) : lexFrom position (gap ++ cs) = lexFrom (position + gap.length) cs := by
  rw [← lexFrom_drop_gap, gapLength_append h, ← List.drop_drop, List.drop_left, ← Nat.add_assoc,
    lexFrom_drop_gap]

theorem lexFrom_blank {c : Char} (h : Text.isBlank c) (position : Nat) (cs : List Char) :
    lexFrom position (c :: cs) = lexFrom (position + 1) cs := by
  have hgap : gapAfter false [c] = some false := by simp [gapAfter, gapStep, h]
  exact lexFrom_gap_append hgap position cs

theorem lexFrom_of_first? {cs : List Char} {l : Lexeme} (h : Lexeme.first? cs = some l)
    (position : Nat) : lexFrom position cs =
      (lexFrom (position + l.chars.length) (cs.drop l.chars.length)).prepend [⟨l, position⟩] := by
  cases cs with
  | nil => cases h
  | cons c cs =>
    rw [lexFrom_eq, gapLength_eq_zero_of_first? h, List.drop_zero]
    simp only [h, Nat.add_zero]

/-- A lexeme before a delimiter is a token, and the tokens of the rest follow it. -/
theorem lexFrom_append {l : Lexeme} (h : Lexeme.first? l.chars = some l) {rest : List Char}
    (hr : Delimited rest) (position : Nat) : lexFrom position (l.chars ++ rest) =
      (lexFrom (position + l.chars.length) rest).prepend [⟨l, position⟩] := by
  rw [lexFrom_of_first? (Lexeme.first?_append h hr), List.drop_left]

/-- A source is lexed past the gap at a place, by the first lexeme there. -/
theorem lex_eq (source : List Char) (position : Nat) : lex source position =
    match source.drop (skipGap source position) with
    | [] => ⟨[], none⟩
    | c :: rest =>
      match Lexeme.first? (c :: rest) with
      | none => ⟨[], some ⟨lexFault c, skipGap source position⟩⟩
      | some l => (lex source (skipGap source position + l.chars.length)).prepend
          [⟨l, skipGap source position⟩] := by
  rcases Nat.le_total position source.length with h | h
  · rw [lex, lexFrom_eq, drop_skipGap, skipGap_of_le h]
    split
    · rfl
    · rename_i c rest hcs
      split
      · rfl
      · rename_i l hl
        rw [lex, ← List.drop_drop, ← List.drop_drop, hcs]
  · rw [lex, drop_skipGap, List.drop_eq_nil_of_le h, lexFrom_nil, List.drop_nil]

/-! ## The text of a lexing -/

-- Only a text that is all gap has neither tokens nor an error.
theorem lexFrom_eq_nil_iff {position : Nat} {cs : List Char} :
    lexFrom position cs = ⟨[], none⟩ ↔ gapLength false cs = cs.length := by
  have hdrop : gapLength false cs = cs.length ↔ cs.drop (gapLength false cs) = [] := by
    rw [List.drop_eq_nil_iff]
    exact ⟨fun h => h.ge, fun h => Nat.le_antisymm (gapLength_le false cs) h⟩
  rw [hdrop, lexFrom_eq]
  constructor
  · intro h
    split at h
    · assumption
    · split at h <;> cases h
  · intro h
    rw [h]

/-- A text with a first token is a gap, the characters of the token, and a text with the other
tokens. -/
theorem lexFrom_eq_cons {position : Nat} {cs : List Char} {t : Token} {ts : List Token}
    {e : Option ReadError} (h : lexFrom position cs = ⟨t :: ts, e⟩) : ∃ gap rest,
      cs = gap ++ (t.chars ++ rest) ∧ gapAfter false gap = some false ∧
        t.start = position + gap.length ∧ Lexeme.first? (t.chars ++ rest) = some t.toLexeme ∧
        lexFrom t.stop rest = ⟨ts, e⟩ := by
  rw [lexFrom_eq] at h
  split at h
  · cases h
  · rename_i c rest hcs
    split at h
    · cases h
    · rename_i l hl
      injection h with htokens herror
      injection htokens with ht hts
      subst ht hts herror
      obtain ⟨others, hothers⟩ := Lexeme.first?_isPrefix hl
      refine ⟨cs.take (gapLength false cs), others, ?_, ?_, ?_, ?_, ?_⟩
      · rw [hothers, ← hcs, List.take_append_drop]
      · exact gapAfter_take_of_ne_nil (by rw [hcs]; exact List.cons_ne_nil c rest)
      · rw [List.length_take_of_le (gapLength_le false cs)]
      · rw [hothers, hl]
      · rw [← hothers, List.drop_left]
        rfl

-- What ends the tokens of a text is blamed on a place after all of them.
theorem stop_le_of_lexFrom {position : Nat} {cs : List Char} {ts : List Token} {e : ReadError}
    (h : lexFrom position cs = ⟨ts, some e⟩) :
    position ≤ e.position ∧ ∀ t ∈ ts, t.stop ≤ e.position := by
  induction ts generalizing position cs with
  | nil =>
    rw [lexFrom_eq] at h
    split at h
    · cases h
    · split at h
      · cases h
        exact ⟨Nat.le_add_right _ _, List.forall_mem_nil _⟩
      · cases h
  | cons t ts ih =>
    obtain ⟨gap, rest, -, -, hstart, -, hrest⟩ := lexFrom_eq_cons h
    obtain ⟨hstop, hstops⟩ := ih hrest
    refine ⟨?_, List.forall_mem_cons.2 ⟨hstop, hstops⟩⟩
    rw [Token.stop, hstart] at hstop
    omega

-- Every token has the characters of a lexeme of its class.
theorem wellSpelled_of_mem_lexFrom {position : Nat} {cs : List Char} {ts : List Token}
    {e : Option ReadError} (h : lexFrom position cs = ⟨ts, e⟩) : ∀ t ∈ ts, t.WellSpelled := by
  induction ts generalizing position cs with
  | nil => exact List.forall_mem_nil _
  | cons t ts ih =>
    obtain ⟨gap, rest, -, -, -, hfirst, hrest⟩ := lexFrom_eq_cons h
    exact List.forall_mem_cons.2 ⟨Lexeme.wellSpelled_of_first? hfirst, ih hrest⟩

-- The tokens from the end of a token on are those that follow it.
theorem lex_stop {source : List Char} {position : Nat} {t : Token} {ts : List Token}
    {e : Option ReadError} (h : lex source position = ⟨t :: ts, e⟩) :
    lex source t.stop = ⟨ts, e⟩ := by
  obtain ⟨gap, rest, hcs, -, hstart, -, hrest⟩ := lexFrom_eq_cons h
  have hstop : source.drop t.stop = rest := by
    rw [Token.stop, hstart, Nat.add_assoc, ← List.drop_drop, hcs, ← List.append_assoc,
      ← List.length_append, List.drop_left]
  rw [lex, hstop, hrest]

/-- A token has the characters that the source has from its start on. -/
theorem first?_of_mem_lex {source : List Char} {position : Nat} {ts : List Token}
    {e : Option ReadError} (h : lex source position = ⟨ts, e⟩) :
    ∀ t ∈ ts, Lexeme.first? (source.drop t.start) = some t.toLexeme := by
  induction ts generalizing position with
  | nil => exact List.forall_mem_nil _
  | cons t ts ih =>
    refine List.forall_mem_cons.2 ⟨?_, ih (lex_stop h)⟩
    obtain ⟨gap, rest, hcs, -, hstart, hfirst, -⟩ := lexFrom_eq_cons h
    rw [hstart, ← List.drop_drop, hcs, List.drop_left, hfirst]

/-- The tokens of a source end in an error where something other than a gap starts no lexeme. -/
theorem first?_of_lex_error {source : List Char} {position : Nat} {ts : List Token} {e : ReadError}
    (h : lex source position = ⟨ts, some e⟩) :
    ∃ c rest, source.drop e.position = c :: rest ∧ e.fault = lexFault c ∧
      gapLength false (c :: rest) = 0 ∧ Lexeme.first? (c :: rest) = none := by
  induction ts generalizing position with
  | nil =>
    have hgap := gapLength_drop false (source.drop position)
    rw [lex, lexFrom_eq] at h
    split at h
    · cases h
    · rename_i c rest hcs
      rw [hcs] at hgap
      split at h
      · cases h
        rw [List.drop_drop] at hcs
        exact ⟨c, rest, hcs, rfl, hgap, ‹_›⟩
      · cases h
  | cons t ts ih => exact ih (lex_stop h)

end MiniLisp
