import MiniLisp.Proofs.Lexing.Locality
import MiniLisp.Proofs.Reader.Grammar
import MiniLisp.Proofs.Text.Literal

/-!
# The place of a reader

The tokens ahead of a reader are those that its source has from its position on. Taking a token
keeps this (`InPlace.after`), so nothing but blanks and comments is left once all tokens are taken
(`InPlace.rest_eq_empty`). A token that is refused is blamed on a place inside it, before anything
that is ahead (`Token.position_lt_stop_of_feed`).
-/

namespace MiniLisp

theorem Token.position_lt_stop_of_atom [Host] {t : Token} {e : ReadError} (h : t.atom = .error e) :
    e.position < t.stop := by
  obtain ⟨-, hnumber⟩ | ⟨-, hbody⟩ := atom_error_cases h
  · rw [position_eq_start_of_number hnumber]
    exact Nat.lt_add_of_pos_right (List.length_pos_iff.2 t.chars_ne_nil)
  · have hle := Text.position_le_of_decode hbody
    -- A body with a bad escape is not empty, so there is a closing double quote after it.
    have hne : (t.chars.drop 1).dropLast ≠ [] := by
      intro hnil
      rw [hnil, Text.decode] at hbody
      cases hbody
    have hlen := List.length_pos_iff.2 hne
    rw [List.length_dropLast, List.length_drop] at hle hlen
    rw [stop]
    omega

theorem Token.position_lt_stop_of_feed [Host] {t : Token} {pending : List Pending} {e : ReadError}
    (h : t.feed pending = .error e) : e.position < t.stop := by
  obtain ⟨-, hatom⟩ | ⟨-, -, rfl⟩ := feed_error_cases h
  · exact position_lt_stop_of_atom hatom
  · exact Nat.lt_add_of_pos_right (List.length_pos_iff.2 t.chars_ne_nil)

namespace Reader

/-- What is ahead of a reader is what lexing finds from its position on. -/
def InPlace (r : Reader) : Prop := lex r.source r.position = ⟨r.tokens, r.error⟩

theorem inPlace_ofSource (source : List Char) (position : Nat) :
    (ofSource source position).InPlace := rfl

theorem inPlace_ofString (source : String) : (ofString source).InPlace :=
  inPlace_ofSource source.toList 0

-- The tokens of a source are what lexing finds in all of its text.
theorem lexFrom_of_tokens {source : String} {ts : List Token} (h : (ofString source).tokens = ts) :
    lexFrom 0 source.toList = ⟨ts, (ofString source).error⟩ := by
  rw [← h]
  rfl

theorem position_past (r : Reader) (ts rest : List Token) :
    (r.past ts rest).position = stopAfter r.position ts := by
  induction ts generalizing r with
  | nil => rfl
  | cons t ts ih => rw [past, ih]; rfl

namespace InPlace

variable {r : Reader}

theorem after (h : r.InPlace) {t : Token} {rest : List Token} (ht : r.tokens = t :: rest) :
    (r.after t rest).InPlace := by
  rw [InPlace, ht] at h
  exact lex_stop h

theorem past (h : r.InPlace) {ts rest : List Token} (ht : r.tokens = ts ++ rest) :
    (r.past ts rest).InPlace := by
  induction ts generalizing r with
  | nil => exact h
  | cons t ts ih => exact ih (h.after ht) rfl

/-- A reader in its place is a new reader that starts there. -/
theorem eq_ofSource (h : r.InPlace) : r = ofSource r.source r.position := by
  rw [ofSource, h]

theorem position_le_past (h : r.InPlace) {ts rest : List Token} (ht : r.tokens = ts ++ rest) :
    r.position ≤ (r.past ts rest).position := by
  rw [InPlace, ht] at h
  obtain ⟨xs, -, -, hstop, -⟩ := lexFrom_eq_append h
  rw [position_past, hstop]
  exact Nat.le_add_right _ _

-- What ends the tokens ahead is blamed on a place after all of them.
theorem stop_le (h : r.InPlace) {e : ReadError} (he : r.error = some e) :
    ∀ t ∈ r.tokens, t.stop ≤ e.position := by
  rw [InPlace, he] at h
  exact (stop_le_of_lexFrom h).2

theorem rest_eq_empty (h : r.InPlace) (ht : r.tokens = []) (he : r.error = none) :
    r.rest = "" := by
  rw [InPlace, ht, he, lex, lexFrom_eq_nil_iff, List.length_drop] at h
  rw [rest, skipGap, List.drop_eq_nil_of_le (by omega)]

end InPlace

end Reader

end MiniLisp
