import MiniLisp.Proofs.Lexing.Lexeme

/-!
# Escaped characters

A character is escaped if a backslash that is not itself escaped stands right before it. This is
told of a place in a source, without regard to the literals there. The double quote that ends a
text literal is the first one after its start that is not escaped (`not_escaped_of_literalBody?`,
`escaped_of_literalBody?_eq_none`). Reading the body of a literal goes from one character that is
not escaped to another, so an escape never reaches past the closing quote, and a bad escape is
blamed on a character that is escaped (`decode_error_at`).
-/

namespace MiniLisp

/-- Whether an unescaped backslash stands right before a position of a source. -/
def Escaped (source : List Char) : Nat → Prop
  | 0 => False
  | position + 1 => source[position]? = some '\\' ∧ ¬ Escaped source position

variable {source cs body : List Char} {c : Char} {k : Nat}

theorem not_escaped_succ_of_ne (h : source[k]? = some c) (hc : c ≠ '\\') :
    ¬ Escaped source (k + 1) := by
  intro hescaped
  rw [Escaped, h] at hescaped
  exact hc (Option.some.inj hescaped.1)

theorem escaped_succ (h : source[k]? = some '\\') (hk : ¬ Escaped source k) :
    Escaped source (k + 1) := ⟨h, hk⟩

-- The character after an escaped one is not escaped.
theorem Escaped.not_succ (h : Escaped source k) : ¬ Escaped source (k + 1) := fun hnext => hnext.2 h

/-! ## Text at a place -/

theorem getElem?_of_cons_isPrefix_drop (h : c :: cs <+: source.drop k) : source[k]? = some c := by
  obtain ⟨rest, hrest⟩ := h
  rw [← List.head?_drop, ← hrest]
  rfl

theorem isPrefix_drop_succ (h : c :: cs <+: source.drop k) : cs <+: source.drop (k + 1) := by
  obtain ⟨rest, hrest⟩ := h
  rw [← List.tail_drop, ← hrest]
  exact List.prefix_append cs rest

theorem isPrefix_drop_add {xs ys : List Char} (h : xs ++ ys <+: source.drop k) :
    ys <+: source.drop (k + xs.length) := by
  obtain ⟨rest, hrest⟩ := h
  rw [← List.drop_drop, ← hrest, List.append_assoc, List.drop_left]
  exact List.prefix_append ys rest

theorem drop_succ_of_drop_eq_cons (h : source.drop k = c :: cs) : source.drop (k + 1) = cs := by
  rw [← List.tail_drop, h]
  rfl

theorem getElem?_of_drop_eq_cons (h : source.drop k = c :: cs) : source[k]? = some c := by
  rw [← List.head?_drop, h]
  rfl

/-! ## The end of a literal -/

/-- The double quote that ends a literal is not escaped. -/
theorem not_escaped_of_literalBody? (hcs : source.drop k = cs) (hk : ¬ Escaped source k)
    (h : literalBody? cs = some body) : ¬ Escaped source (k + body.length) := by
  fun_induction literalBody? cs generalizing k body with
  | case1 => cases h
  | case2 cs =>
    cases h
    exact hk
  | case3 => cases h
  | case4 c cs ih =>
    obtain ⟨b, hb, rfl⟩ := Option.map_eq_some_iff.1 h
    have hescaped : Escaped source (k + 1) := escaped_succ (getElem?_of_drop_eq_cons hcs) hk
    have hrest := drop_succ_of_drop_eq_cons (drop_succ_of_drop_eq_cons hcs)
    have hend := ih hrest hescaped.not_succ hb
    rwa [List.length_cons, List.length_cons, show k + (b.length + 1 + 1) = k + 1 + 1 + b.length by
      omega]
  | case5 c cs hquote hlone hpair ih =>
    obtain ⟨b, hb, rfl⟩ := Option.map_eq_some_iff.1 h
    have hc := ne_backslash_of_not_pair hlone hpair
    have hnext := not_escaped_succ_of_ne (getElem?_of_drop_eq_cons hcs) hc
    have hend := ih (drop_succ_of_drop_eq_cons hcs) hnext hb
    rwa [List.length_cons, show k + (b.length + 1) = k + 1 + b.length by omega]

/-- Where a literal has no end, every double quote is escaped. -/
theorem escaped_of_literalBody?_eq_none (hcs : source.drop k = cs) (hk : ¬ Escaped source k)
    (h : literalBody? cs = none) {q : Nat} (hq : k ≤ q) (hmark : source[q]? = some '"') :
    Escaped source q := by
  fun_induction literalBody? cs generalizing k with
  | case1 =>
    have hend : source.length ≤ k := List.drop_eq_nil_iff.1 hcs
    rw [List.getElem?_eq_none (by omega)] at hmark
    cases hmark
  | case2 cs => cases h
  | case3 =>
    have hnil := List.drop_eq_nil_iff.1 (drop_succ_of_drop_eq_cons hcs)
    rcases Nat.eq_or_lt_of_le hq with rfl | hlt
    · rw [getElem?_of_drop_eq_cons hcs] at hmark
      cases hmark
    · rw [List.getElem?_eq_none (by omega)] at hmark
      cases hmark
  | case4 c cs ih =>
    have hescaped : Escaped source (k + 1) := escaped_succ (getElem?_of_drop_eq_cons hcs) hk
    have hrest := drop_succ_of_drop_eq_cons (drop_succ_of_drop_eq_cons hcs)
    -- The quote is not the backslash; it is the character after it, or it comes later.
    rcases Nat.eq_or_lt_of_le hq with rfl | hlt
    · rw [getElem?_of_drop_eq_cons hcs] at hmark
      cases hmark
    rcases Nat.eq_or_lt_of_le hlt with rfl | hlt
    · exact hescaped
    · exact ih hrest hescaped.not_succ (Option.map_eq_none_iff.1 h) hlt
  | case5 c cs hquote hlone hpair ih =>
    have hc := ne_backslash_of_not_pair hlone hpair
    have hnext := not_escaped_succ_of_ne (getElem?_of_drop_eq_cons hcs) hc
    rcases Nat.eq_or_lt_of_le hq with rfl | hlt
    · rw [getElem?_of_drop_eq_cons hcs] at hmark
      exact absurd (Option.some.inj hmark) hquote
    · exact ih (drop_succ_of_drop_eq_cons hcs) hnext (Option.map_eq_none_iff.1 h) hlt

/-! ## The escapes of a literal -/

-- The last character of an escape is no backslash, save where it is itself escaped.
theorem not_escaped_of_escape {es : List Char} (h : Text.Escape es c)
    (hslash : source[k]? = some '\\') (hk : ¬ Escaped source k) (hes : es <+: source.drop (k + 1)) :
    ¬ Escaped source (k + 1 + es.length) := by
  cases h with
  | letter => exact (escaped_succ hslash hk).not_succ
  | @codePoint digits =>
    have hbrace : source[k + 1 + 1 + 1 + digits.length]? = some '\x7d' :=
      getElem?_of_cons_isPrefix_drop
        (isPrefix_drop_add (isPrefix_drop_succ (isPrefix_drop_succ hes)))
    rw [List.length_cons, List.length_cons, List.length_append, List.length_singleton,
      show k + 1 + (digits.length + 1 + 1 + 1) = k + 1 + 1 + 1 + digits.length + 1 by omega]
    exact not_escaped_succ_of_ne hbrace (by decide)

-- What has been read of a body ends in no backslash that would escape what follows.
theorem not_escaped_of_spells {read : List Char} (h : Text.Spells read cs)
    (hread : read <+: source.drop k) (hk : ¬ Escaped source k) :
    ¬ Escaped source (k + read.length) := by
  induction h generalizing k with
  | nil => exact hk
  | @plain c body cs hc _ ih =>
    have hnext := not_escaped_succ_of_ne (getElem?_of_cons_isPrefix_drop hread) hc
    have hrest := ih (isPrefix_drop_succ hread) hnext
    rwa [List.length_cons, show k + (body.length + 1) = k + 1 + body.length by omega]
  | @escape es body cs c he _ ih =>
    have hslash := getElem?_of_cons_isPrefix_drop hread
    have hes := isPrefix_drop_succ hread
    have hnext := not_escaped_of_escape he hslash hk ((List.prefix_append es body).trans hes)
    have hrest := ih (isPrefix_drop_add hes) hnext
    rwa [List.length_cons, List.length_append,
      show k + (es.length + body.length + 1) = k + 1 + es.length + body.length by omega]

/-- In a literal whose closing quote is not escaped, a bad escape is blamed on the character after
its backslash. -/
theorem decode_error_at (hbody : body <+: source.drop k) (hk : ¬ Escaped source k)
    (hend : ¬ Escaped source (k + body.length)) {e : ReadError}
    (h : Text.decode k body = .error e) :
    k < e.position ∧ Escaped source e.position ∧
      ∃ c cs, c :: cs <+: source.drop e.position ∧ Text.readEscape (c :: cs) = .error e.fault := by
  obtain ⟨read, cs, rest, rfl, hspells, hbad, hpos⟩ := Text.exists_of_decode_error h
  have hread := (List.prefix_append read _).trans hbody
  have hslash := isPrefix_drop_add hbody
  have hescaped : Escaped source (k + read.length + 1) :=
    escaped_succ (getElem?_of_cons_isPrefix_drop hslash) (not_escaped_of_spells hspells hread hk)
  rw [hpos]
  refine ⟨by omega, hescaped, ?_⟩
  cases rest with
  | nil =>
    rw [List.length_append, List.length_singleton] at hend
    exact absurd hescaped hend
  | cons c cs => exact ⟨c, cs, isPrefix_drop_succ hslash, hbad⟩

end MiniLisp
