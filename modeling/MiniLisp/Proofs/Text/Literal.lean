import MiniLisp.Text.Literal

/-!
# Text literals read back

The body of a literal is a row of plain characters and escapes, and spells the characters that these
stand for (`Spells`). Reading gives the characters that a body spells, whatever follows it
(`decode_append`), and only those (`spells_of_decode`); where it fails, it has come to a backslash
that no escape follows (`exists_of_decode_error`). What `Text.encode` writes for some characters
spells them (`spells_encode`), so it reads back (`decode_encode`).
-/

namespace MiniLisp.Text

/-! ## The grammar of a body -/

/-- The letters that stand for one character after a backslash, with these characters. -/
def escapeLetters : List (Char × Char) := [
  ('"', '"'), ('\\', '\\'), ('/', '/'), ('n', '\n'), ('t', '\t'), ('r', '\r'), ('b', '\x08'),
  ('f', '\x0c')]

/-- One to six hexadecimal digits. -/
def IsCodePoint (digits : List Char) : Prop :=
  (1 ≤ digits.length ∧ digits.length ≤ 6) ∧ ∀ d ∈ digits, isHexDigit d

/-- The text of an escape after its backslash, with the character it stands for: one of eight
letters, or `u` with the number of the character in braces. -/
inductive Escape : List Char → Char → Prop
  | letter {letter c : Char} (h : (letter, c) ∈ escapeLetters) : Escape [letter] c
  | codePoint {digits : List Char} {c : Char} (h : IsCodePoint digits)
      (hc : c.toNat = natOfHexDigits digits) : Escape ('u' :: '\x7b' :: (digits ++ ['\x7d'])) c

/-- The body of a literal, with the characters it spells. -/
inductive Spells : List Char → List Char → Prop
  | nil : Spells [] []
  | plain {c : Char} {body cs : List Char} (hc : c ≠ '\\') (h : Spells body cs) :
      Spells (c :: body) (c :: cs)
  | escape {es body cs : List Char} {c : Char} (he : Escape es c) (h : Spells body cs) :
      Spells ('\\' :: (es ++ body)) (c :: cs)

theorem Spells.append {xs ys cs ds : List Char} (h : Spells xs cs) (h' : Spells ys ds) :
    Spells (xs ++ ys) (cs ++ ds) := by
  induction h with
  | nil => exact h'
  | plain hc _ ih => exact .plain hc ih
  | escape he _ ih =>
    rw [List.cons_append, List.append_assoc]
    exact .escape he ih

/-! ## Reading an escape -/

theorem escaped?_eq_some_iff {letter c : Char} :
    escaped? letter = some c ↔ (letter, c) ∈ escapeLetters := by
  unfold escaped?
  split <;> simp_all [escapeLetters, eq_comm]

theorem codePointDigits?_eq_some_iff {cs digits : List Char} : codePointDigits? cs = some digits ↔
    IsCodePoint digits ∧ ∃ rest, cs = 'u' :: '\x7b' :: (digits ++ '\x7d' :: rest) := by
  constructor
  · intro h
    unfold codePointDigits? at h
    split at h
    · rename_i es
      simp only [Option.ite_none_right_eq_some, Option.some.injEq] at h
      obtain ⟨⟨hpos, hle, hbrace⟩, rfl⟩ := h
      obtain ⟨rest, hrest⟩ := List.head?_eq_some_iff.1 hbrace
      refine ⟨⟨⟨hpos, hle⟩, List.all_eq_true.1 List.all_takeWhile⟩, rest, ?_⟩
      rw [← hrest, List.prefix_iff_eq_append.1 (List.takeWhile_prefix isHexDigit)]
    · cases h
  · rintro ⟨⟨⟨hpos, hle⟩, hhex⟩, rest, rfl⟩
    have hdigits : (digits ++ '\x7d' :: rest).takeWhile isHexDigit = digits := by
      rw [List.takeWhile_append_of_pos hhex, List.takeWhile_cons, if_neg (by decide),
        List.append_nil]
    simp only [codePointDigits?, hdigits]
    rw [if_pos ⟨hpos, hle, by simp⟩]

/-- An escape is read to its end, whatever follows it. -/
theorem readEscape_append {es : List Char} {c : Char} (h : Escape es c) (rest : List Char) :
    readEscape (es ++ rest) = .ok (c, es.length) := by
  cases h with
  | letter h =>
    rw [List.singleton_append, readEscape, escaped?_eq_some_iff.2 h]
    rfl
  | @codePoint digits _ h hc =>
    have hvalid : (natOfHexDigits digits).isValidChar := hc ▸ c.valid
    have hdigits : codePointDigits? ('u' :: '\x7b' :: (digits ++ '\x7d' :: rest)) = some digits :=
      codePointDigits?_eq_some_iff.2 ⟨h, rest, rfl⟩
    simp only [List.cons_append, List.append_assoc, List.nil_append, readEscape, hdigits,
      show escaped? 'u' = none from rfl]
    rw [if_pos hvalid, ← hc, Char.ofNat_toNat, List.length_cons, List.length_cons,
      List.length_append, List.length_singleton]

theorem exists_escape_of_readEscape {cs : List Char} {c : Char} {length : Nat}
    (h : readEscape cs = .ok (c, length)) :
    ∃ es rest, cs = es ++ rest ∧ Escape es c ∧ length = es.length := by
  cases cs with
  | nil => cases h
  | cons d cs =>
    rw [readEscape] at h
    split at h
    · cases h
      exact ⟨[d], cs, rfl, .letter (escaped?_eq_some_iff.1 ‹_›), rfl⟩
    split at h
    · rename_i digits hdigits
      obtain ⟨hcode, rest, hrest⟩ := codePointDigits?_eq_some_iff.1 hdigits
      split at h <;> cases h
      have hc : (Char.ofNat (natOfHexDigits digits)).toNat = natOfHexDigits digits := by
        rw [Char.ofNat, dif_pos ‹_›]
        rfl
      exact ⟨_, rest, by rw [hrest]; simp, .codePoint hcode hc, by simp⟩
    · cases h

-- An escape is bad because its letter is unknown, or because its code point is no character.
theorem readEscape_error_cases {c : Char} {cs : List Char} {fault : ReadFault}
    (h : readEscape (c :: cs) = .error fault) :
    (escaped? c = none ∧ codePointDigits? (c :: cs) = none ∧ fault = .unknownEscape c) ∨
      ∃ digits, codePointDigits? (c :: cs) = some digits ∧
        ¬ (natOfHexDigits digits).isValidChar ∧ fault = .invalidCodePoint digits := by
  rw [readEscape] at h
  split at h
  · cases h
  split at h
  · rename_i digits hdigits
    split at h <;> cases h
    exact .inr ⟨digits, hdigits, ‹_›, rfl⟩
  · cases h
    exact .inl ⟨‹_›, ‹_›, rfl⟩

/-! ## Reading a body -/

theorem decode_cons_of_ne {c : Char} (h : c ≠ '\\') (position : Nat) (cs : List Char) :
    decode position (c :: cs) = (decode (position + 1) cs).map (c :: ·) := by
  rw [decode, if_neg h]

theorem decode_backslash {cs : List Char} {c : Char} {length : Nat}
    (h : readEscape cs = .ok (c, length)) (position : Nat) :
    decode position ('\\' :: cs) =
      (decode (position + 1 + length) (cs.drop length)).map (c :: ·) := by
  rw [decode, if_pos rfl, h]

theorem decode_backslash_error {cs : List Char} {fault : ReadFault}
    (h : readEscape cs = .error fault) (position : Nat) :
    decode position ('\\' :: cs) = .error ⟨fault, position + 1⟩ := by
  rw [decode, if_pos rfl, h]

/-- What a body spells is read first, whatever follows it. -/
theorem decode_append {body cs : List Char} (h : Spells body cs) (position : Nat)
    (rest : List Char) : decode position (body ++ rest) =
      (decode (position + body.length) rest).map (cs ++ ·) := by
  induction h generalizing position with
  | nil => cases hrest : decode position rest <;> simp [hrest, Except.map]
  | @plain c body cs hc _ ih =>
    rw [List.cons_append, decode_cons_of_ne hc, ih, List.length_cons, Nat.add_right_comm,
      Nat.add_assoc]
    cases decode (position + (body.length + 1)) rest <;> rfl
  | @escape es body cs c he _ ih =>
    rw [List.cons_append, List.append_assoc, decode_backslash (readEscape_append he _),
      List.drop_left, ih, List.length_cons, List.length_append,
      show position + 1 + es.length + body.length = position + (es.length + body.length + 1) by
        omega]
    cases decode (position + (es.length + body.length + 1)) rest <;> rfl

theorem decode_of_spells {body cs : List Char} (h : Spells body cs) (position : Nat) :
    decode position body = .ok cs := by
  have happend := decode_append h position []
  rw [List.append_nil, decode] at happend
  rw [happend, Except.map, List.append_nil]

theorem spells_of_decode {position : Nat} {body cs : List Char}
    (h : decode position body = .ok cs) : Spells body cs := by
  fun_induction decode position body generalizing cs with
  | case1 position =>
    cases h
    exact .nil
  | case2 position body c length hread ih =>
    obtain ⟨es, rest, rfl, he, rfl⟩ := exists_escape_of_readEscape hread
    rw [List.drop_left] at h ih
    obtain ⟨ds, hrest, rfl⟩ := map_eq_ok_iff.1 h
    exact .escape he (ih hrest)
  | case3 position body fault hread => cases h
  | case4 position c body hc ih =>
    obtain ⟨ds, hrest, rfl⟩ := map_eq_ok_iff.1 h
    exact .plain hc (ih hrest)

/-- Reading a body fails after what a first part of it spells, at a backslash with no escape. -/
theorem exists_of_decode_error {position : Nat} {body : List Char} {e : ReadError}
    (h : decode position body = .error e) : ∃ read cs rest, body = read ++ '\\' :: rest ∧
      Spells read cs ∧ readEscape rest = .error e.fault ∧
      e.position = position + read.length + 1 := by
  fun_induction decode position body with
  | case1 position => cases h
  | case2 position body c length hread ih =>
    obtain ⟨es, others, rfl, he, rfl⟩ := exists_escape_of_readEscape hread
    rw [List.drop_left] at h ih
    obtain ⟨read, cs, rest, rfl, hspells, hbad, hpos⟩ := ih (map_eq_error_iff.1 h)
    refine ⟨'\\' :: (es ++ read), c :: cs, rest, by simp, .escape he hspells, hbad, ?_⟩
    rw [hpos, List.length_cons, List.length_append]
    omega
  | case3 position body fault hread =>
    cases h
    exact ⟨[], [], body, rfl, .nil, hread, rfl⟩
  | case4 position c body hc ih =>
    obtain ⟨read, cs, rest, rfl, hspells, hbad, hpos⟩ := ih (map_eq_error_iff.1 h)
    refine ⟨c :: read, c :: cs, rest, rfl, .plain hc hspells, hbad, ?_⟩
    rw [hpos, List.length_cons]
    omega

/-- A bad escape is blamed on a place inside the body of the literal, or at its end. -/
theorem position_le_of_decode {position : Nat} {cs : List Char} {e : ReadError}
    (h : decode position cs = .error e) : e.position ≤ position + cs.length := by
  obtain ⟨read, ds, rest, rfl, -, -, hpos⟩ := exists_of_decode_error h
  rw [hpos, List.length_append, List.length_cons]
  omega

/-! ## Writing -/

theorem escaped?_of_escapeLetter? {c letter : Char} (h : escapeLetter? c = some letter) :
    escaped? letter = some c := by
  unfold escapeLetter? at h
  split at h <;> cases h <;> rfl

-- A character that is written as itself is neither of the two marks of a literal.
theorem ne_marks_of_escapeLetter? {c : Char} (h : escapeLetter? c = none) : c ≠ '"' ∧ c ≠ '\\' := by
  constructor <;> rintro rfl <;> cases h

theorem isHexDigit_of_mem_hexDigits {n : Nat} {c : Char} (h : c ∈ hexDigits n) : isHexDigit c := by
  induction n using Nat.strongRecOn with
  | ind n ih =>
    by_cases hn : n < 16
    · rw [hexDigits, Nat.toDigits_of_lt_base hn, List.mem_singleton] at h
      rw [h, isHexDigit, hexDigit?_digitChar hn]
      rfl
    · have hr : n % 16 < 16 := Nat.mod_lt _ (by decide)
      rw [hexDigits, Nat.toDigits_eq_if (by decide), if_neg hn, List.mem_append,
        List.mem_singleton] at h
      rcases h with h | rfl
      · exact ih (n / 16) (by omega) h
      · rw [isHexDigit, hexDigit?_digitChar hr]
        rfl

-- Six digits are enough for every code point.
theorem isCodePoint_hexDigits (c : Char) : IsCodePoint (hexDigits c.toNat) := by
  refine ⟨⟨Nat.length_toDigits_pos, ?_⟩, fun d => isHexDigit_of_mem_hexDigits⟩
  rw [hexDigits, Nat.length_toDigits_le_iff (by decide) (by decide)]
  have hc : c.toNat.isValidChar := c.valid
  unfold Nat.isValidChar at hc
  omega

-- What is written for one character spells that character.
theorem spells_encodeChar (c : Char) : Spells (encodeChar c) [c] := by
  unfold encodeChar
  split
  · rename_i letter hletter
    have hescape : Escape [letter] c :=
      .letter (escaped?_eq_some_iff.1 (escaped?_of_escapeLetter? hletter))
    exact .escape hescape .nil
  · rename_i hletter
    split
    · exact .plain (ne_marks_of_escapeLetter? hletter).2 .nil
    · have hescape : Escape ('u' :: '\x7b' :: (hexDigits c.toNat ++ ['\x7d'])) c :=
        .codePoint (isCodePoint_hexDigits c) (natOfHexDigits_hexDigits c.toNat).symm
      have hspells := Spells.escape hescape .nil
      rwa [List.append_nil] at hspells

theorem spells_encode (cs : List Char) : Spells (encode cs) cs := by
  induction cs with
  | nil => exact .nil
  | cons c cs ih =>
    rw [encode, List.flatMap_cons]
    exact (spells_encodeChar c).append ih

/-- The body of a literal reads as the text it was written for. -/
theorem decode_encode (position : Nat) (cs : List Char) :
    decode position (encode cs) = .ok cs := decode_of_spells (spells_encode cs) position

end MiniLisp.Text
