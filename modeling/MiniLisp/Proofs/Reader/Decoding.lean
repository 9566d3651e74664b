import MiniLisp.Proofs.Lexing.Escape
import MiniLisp.Proofs.Reader.Shift

/-!
# Decoding follows the grammar of escapes

The body of a text literal is decoded if and only if it is a row of plain characters and escapes,
and then to the characters these stand for. Any other body is refused right after the first
backslash that no escape follows, with what is wrong there (`BadEscape`). So a body in two parts is
decoded part by part (`decode_follows_grammar`).
-/

namespace MiniLisp.Text

/-- What is wrong with the text after a backslash if it starts with no escape: neither one of the
eight letters comes first nor a code point in braces, or the code point is past the last one or a
surrogate. -/
inductive BadEscape : List Char → ReadFault → Prop
  | unknown {c : Char} {rest : List Char} (hletter : ∀ d, (c, d) ∉ escapeLetters)
      (hcode : ∀ digits, IsCodePoint digits →
        ¬ 'u' :: '\x7b' :: (digits ++ ['\x7d']) <+: c :: rest) :
      BadEscape (c :: rest) (.unknownEscape c)
  | codePoint {digits rest : List Char} (h : IsCodePoint digits)
      (hn : 0x10ffff < natOfHexDigits digits ∨
        0xd800 ≤ natOfHexDigits digits ∧ natOfHexDigits digits ≤ 0xdfff) :
      BadEscape ('u' :: '\x7b' :: (digits ++ '\x7d' :: rest)) (.invalidCodePoint digits)

variable {rest : List Char} {fault : ReadFault}

theorem codePointDigits?_eq_none_iff : codePointDigits? rest = none ↔
    ∀ digits, IsCodePoint digits → ¬ 'u' :: '\x7b' :: (digits ++ ['\x7d']) <+: rest := by
  rw [Option.eq_none_iff_forall_ne_some]
  refine forall_congr' fun digits => ?_
  rw [Ne, codePointDigits?_eq_some_iff, not_and]
  refine imp_congr_right fun _ => not_congr (exists_congr fun others => ?_)
  simp [eq_comm]

theorem readEscape_of_badEscape (h : BadEscape rest fault) : readEscape rest = .error fault := by
  cases h with
  | @unknown c rest hletter hcode =>
    have hescaped : escaped? c = none :=
      Option.eq_none_iff_forall_ne_some.2 fun d hd => hletter d (escaped?_eq_some_iff.1 hd)
    simp only [readEscape, hescaped, codePointDigits?_eq_none_iff.2 hcode]
  | @codePoint digits rest h hn =>
    have hdigits : codePointDigits? ('u' :: '\x7b' :: (digits ++ '\x7d' :: rest)) = some digits :=
      codePointDigits?_eq_some_iff.2 ⟨h, rest, rfl⟩
    simp only [readEscape, show escaped? 'u' = none from rfl, hdigits]
    rw [if_neg (by omega)]

theorem badEscape_of_readEscape {c : Char} (h : readEscape (c :: rest) = .error fault) :
    BadEscape (c :: rest) fault := by
  obtain ⟨hletter, hcode, rfl⟩ | ⟨digits, hdigits, hinvalid, rfl⟩ := readEscape_error_cases h
  · refine .unknown (fun d hd => ?_) (codePointDigits?_eq_none_iff.1 hcode)
    rw [escaped?_eq_some_iff.2 hd] at hletter
    cases hletter
  · obtain ⟨hcode, others, hothers⟩ := codePointDigits?_eq_some_iff.1 hdigits
    rw [hothers]
    exact .codePoint hcode (by omega)

theorem BadEscape.not_isPrefix (h : BadEscape rest fault) {es : List Char} {c : Char}
    (he : Escape es c) : ¬ es <+: rest := by
  rintro ⟨others, rfl⟩
  have hread := readEscape_of_badEscape h
  rw [readEscape_append he] at hread
  cases hread

/-- Where a body is refused, a bad escape follows what has been read of it. -/
theorem decode_eq_error_iff {body : List Char} (hbody : ¬ Escaped body body.length)
    {start : Nat} {e : ReadError} : decode start body = .error e ↔
      ∃ read cs rest, body = read ++ '\\' :: rest ∧ Spells read cs ∧ BadEscape rest e.fault ∧
        e.position = start + read.length + 1 := by
  constructor
  · intro h
    obtain ⟨read, cs, rest, rfl, hspells, hbad, hpos⟩ := exists_of_decode_error h
    refine ⟨read, cs, rest, rfl, hspells, ?_, hpos⟩
    cases rest with
    | cons c rest => exact badEscape_of_readEscape hbad
    | nil =>
      -- The backslash would be the last character of the body.
      have hread : read <+: (read ++ ['\\']).drop 0 := List.prefix_append read ['\\']
      have hbefore := not_escaped_of_spells hspells hread id
      rw [Nat.zero_add] at hbefore
      rw [List.length_append, List.length_singleton] at hbody
      exact absurd (escaped_succ List.getElem?_concat_length hbefore) hbody
  · rintro ⟨read, cs, rest, rfl, hspells, hbad, hpos⟩
    rw [decode_append hspells, decode_backslash_error (readEscape_of_badEscape hbad), ← hpos]
    rfl

/-- A body that ends in no lone backslash is decoded if and only if it spells something, and then to
what it spells. It is refused if and only if what has been read of it is followed by a backslash and
no escape, and then for this, at the place after the backslash. A body that follows one that can be
decoded is decoded after it, and refused further on. -/
theorem decode_follows_grammar (start : Nat) :
    (∀ body, ¬ Escaped body body.length →
      (∀ cs, decode start body = .ok cs ↔ Spells body cs) ∧
      ∀ e, decode start body = .error e ↔
        ∃ read cs rest, body = read ++ '\\' :: rest ∧ Spells read cs ∧
          (∀ es c, Escape es c → ¬ es <+: rest) ∧ BadEscape rest e.fault ∧
          e.position = start + read.length + 1) ∧
    ∀ xs ys cs, decode start xs = .ok cs →
      decode start (xs ++ ys) = match decode start ys with
        | .ok ds => .ok (cs ++ ds)
        | .error e => .error ⟨e.fault, e.position + xs.length⟩ := by
  refine ⟨fun body hbody => ⟨fun cs => ⟨spells_of_decode, fun h => decode_of_spells h start⟩,
    fun e => ?_⟩, fun xs ys cs hxs => ?_⟩
  · rw [decode_eq_error_iff hbody]
    constructor
    · rintro ⟨read, cs, rest, hsplit, hspells, hbad, hpos⟩
      exact ⟨read, cs, rest, hsplit, hspells, fun es c => hbad.not_isPrefix, hbad, hpos⟩
    · rintro ⟨read, cs, rest, hsplit, hspells, -, hbad, hpos⟩
      exact ⟨read, cs, rest, hsplit, hspells, hbad, hpos⟩
  · rw [decode_append (spells_of_decode hxs), decode_shift]
    cases decode start ys <;> rfl

/-- A surrogate is refused after two escapes that are not, and a body after one that can be decoded
is refused for its own escape. -/
theorem decode_follows_grammar_surrogate :
    (∃ body e read cs rest, body = "a\\t\\u{41}\\u{d800}\\\\".toList ∧
      e = ⟨.invalidCodePoint "d800".toList, 13⟩ ∧ decode 3 body = .error e ∧
      body = read ++ '\\' :: rest ∧ Spells read cs ∧ BadEscape rest e.fault ∧
      13 = 3 + read.length + 1) ∧
    decode 3 "a\\/".toList = .ok "a/".toList ∧ Spells "a\\/".toList "a/".toList ∧
    decode 3 "a\\/\\x".toList = .error ⟨.unknownEscape 'x', 7⟩ := by
  have hbody : ¬ Escaped "a\\t\\u{41}\\u{d800}\\\\".toList
      "a\\t\\u{41}\\u{d800}\\\\".toList.length := by
    have hlast : Escaped "a\\t\\u{41}\\u{d800}\\\\".toList 18 :=
      escaped_succ (by decide) (not_escaped_succ_of_ne (c := '\x7d') (by decide) (by decide))
    exact hlast.not_succ
  have herror : decode 3 "a\\t\\u{41}\\u{d800}\\\\".toList =
      .error ⟨.invalidCodePoint "d800".toList, 13⟩ := by decide +kernel
  have hok : decode 3 "a\\/".toList = .ok "a/".toList := by decide +kernel
  have hplain : ¬ Escaped "a\\/".toList "a\\/".toList.length :=
    not_escaped_succ_of_ne (k := 2) (c := '/') (by decide) (by decide)
  obtain ⟨hone, htwo⟩ := decode_follows_grammar 3
  obtain ⟨read, cs, rest, hsplit, hspells, -, hbad, hpos⟩ := ((hone _ hbody).2 _).1 herror
  refine ⟨⟨_, _, read, cs, rest, rfl, rfl, herror, hsplit, hspells, hbad, hpos⟩, hok,
    ((hone _ hplain).1 _).1 hok, ?_⟩
  have happend := htwo "a\\/".toList "\\x".toList _ hok
  rw [show decode 3 "\\x".toList = .error ⟨.unknownEscape 'x', 4⟩ by decide +kernel] at happend
  exact happend

end MiniLisp.Text
