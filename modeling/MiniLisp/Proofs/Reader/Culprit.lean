import MiniLisp.Proofs.Lexing.Escape
import MiniLisp.Proofs.Reader.Numeral

/-!
# The culprit of a read error

What the reader reports about a source is reported at the place that is to blame for it.
`Culprit source message position` says this of every message in terms of the characters of the
source: which of them stands at the position, and what makes it the culprit.

An error comes from the lexing that ends the tokens, from a token that is refused, or from an end
that comes too early (`Reader.Refuses`). For the first two it is traced back to the text of the
source that starts there; an escape needs `decode_error_at` for it.

One error is not the reader's own: nothing keeps the host from refusing a numeral with more digits
than it converts (`Overlong`), and what it then raises is no error of the language.
-/

namespace MiniLisp

/-- The position is that of the character which a message is to be blamed on. -/
inductive Culprit (source : List Char) : String → Nat → Prop
  /-- A double quote where the tokens end, with none after it that is not escaped. -/
  | openText {p : Nat} (hlex : (lex source 0).error = some ⟨.unterminatedText, p⟩)
      (hmark : source[p]? = some '"') (hend : ∀ q > p, source[q]? = some '"' → Escaped source q) :
      Culprit source "Unterminated string literal" p
  /-- A character where the tokens end, which starts neither a gap nor a lexeme, whatever follows
  it. -/
  | character {p : Nat} {c : Char} (hlex : (lex source 0).error = some ⟨.unexpectedCharacter c, p⟩)
      (hchar : source[p]? = some c) (hgap : ∀ cs, gapLength false (c :: cs) = 0)
      (hnone : ∀ cs, Lexeme.first? (c :: cs) = none) :
      Culprit source ("Unexpected character " ++ Text.quoted c.toString) p
  | closeParen {t : Token} (ht : t ∈ (lex source 0).tokens) (hchar : source[t.start]? = some ')') :
      Culprit source "Unexpected ')'" t.start
  | openParen {t : Token} (ht : t ∈ (lex source 0).tokens) (hchar : source[t.start]? = some '(') :
      Culprit source "Unmatched '('" t.start
  /-- The sign of a numeral, or its first digit if it has no sign. -/
  | number {t : Token} {c : Char} (ht : t ∈ (lex source 0).tokens)
      (hnumeral : t.cls = .number ∧ IsNumeral t.chars) (htext : t.chars <+: source.drop t.start)
      (hchar : source[t.start]? = some c) (hstart : Text.isDecimalDigit c ∨ isSign c)
      (hrange : ¬ Number.InRange (Text.intOfDigits t.chars)) :
      Culprit source "Integer literal out of range" t.start
  /-- The letter of an escape inside a text literal, if it is none of the eight letters. -/
  | unknownEscape {t : Token} {p : Nat} {c : Char} (ht : t ∈ (lex source 0).tokens)
      (htext : t.cls = .text) (hinside : t.start < p ∧ p < t.stop) (hescaped : Escaped source p)
      (hchar : source[p]? = some c) (hunknown : Text.escaped? c = none) :
      Culprit source ("Unknown escape sequence \\" ++ c.toString) p
  /-- The letter of a code point escape inside a text literal, if the code point is no
  character. -/
  | codePoint {t : Token} {p : Nat} {digits : List Char} (ht : t ∈ (lex source 0).tokens)
      (htext : t.cls = .text) (hinside : t.start < p ∧ p < t.stop) (hescaped : Escaped source p)
      (hchars : 'u' :: '\x7b' :: (digits ++ ['\x7d']) <+: source.drop p)
      (hdigits : ∀ d ∈ digits, Text.isHexDigit d)
      (hinvalid : ¬ (Text.natOfHexDigits digits).isValidChar) :
      Culprit source ("Invalid unicode escape \\u\x7b" ++ String.ofList digits ++ "\x7d") p
  | ending : Culprit source "Unexpected end of input" source.length

/-- The error is the host's, for a numeral of the source with more digits than it converts. -/
inductive Overlong [Host] (source : List Char) : ReadError → Prop
  | numeral {t : Token} {limit : Nat} (ht : t ∈ (lex source 0).tokens)
      (hnumeral : t.cls = .number ∧ IsNumeral t.chars) (htext : t.chars <+: source.drop t.start)
      (hlimit : Host.digitLimit = some limit) (hdigits : limit < Text.digitCount t.chars) :
      Overlong source ⟨.tooManyDigits (Text.digitCount t.chars) limit, t.start⟩

/-! ## Where errors come from -/

namespace Reader

variable [Host]

/-- What a reader can refuse what is ahead of it with. -/
inductive Refuses (r : Reader) : ReadError → Prop
  | lexing {e : ReadError} (he : r.error = some e) : Refuses r e
  | token {t : Token} {pending : List Pending} {e : ReadError} (ht : t ∈ r.tokens)
      (hfeed : t.feed pending = .error e) : Refuses r e
  | unmatched {o : Token} (ho : o ∈ r.tokens) (hcls : o.cls = .openParen) :
      Refuses r ⟨.unmatchedOpen, o.start⟩
  | ending : Refuses r r.unexpectedEnd

variable {r after : Reader} {e : ReadError}

theorem Refuses.of_past {ts rest : List Token} (hr : r.tokens = ts ++ rest)
    (h : (r.past ts rest).Refuses e) : r.Refuses e := by
  have hmem : ∀ t ∈ (r.past ts rest).tokens, t ∈ r.tokens := by
    intro t ht
    rw [r.tokens_past hr] at ht
    rw [hr]
    exact List.mem_append_right ts ht
  cases h with
  | lexing he => exact .lexing (by rwa [r.error_past] at he)
  | token ht hfeed => exact .token (hmem _ ht) hfeed
  | unmatched ho hcls => exact .unmatched (hmem _ ho) hcls
  | ending =>
    rw [unexpectedEnd, r.source_past]
    exact .ending

-- What is open at the end was opened by one of the tokens read.
theorem refuses_endError {pending : List Pending} (h : Begun r.tokens pending) :
    r.Refuses (r.endError pending) := by
  obtain ⟨ts, hts⟩ : ∃ ts, r.tokens = ts := ⟨_, rfl⟩
  rw [hts] at h
  cases h with
  | top => exact .ending
  | quote => exact .ending
  | list h ho =>
    refine .unmatched ?_ ho
    rw [hts]
    simp

theorem read_refuses (h : r.read = (.error e, after)) : r.Refuses e := by
  obtain ⟨last, hlast, rfl⟩ | ⟨ts₁, t, ts₂, last, hsplit, -, hfeed⟩ :=
    readFrom_error (fun ts progress => progress.Derived ts)
      (fun _ _ _ _ hus hfeed => Begun.feed hus hfeed) Begun.top h
  · cases he : r.error with
    | none => exact refuses_endError hlast
    | some e => exact .lexing he
  · refine .token ?_ hfeed
    rw [hsplit]
    simp

theorem readAll_refuses (h : r.readAll.error = some e) : r.Refuses e := by
  fun_induction Reader.readAll r with
  | case1 r e' ht he =>
    cases h
    exact .lexing he
  | case2 => cases h
  | case3 r t ts hts e' after hread =>
    cases h
    exact read_refuses hread
  | case4 r t ts hts v after hread others ih =>
    obtain ⟨us, rest, hsplit, -, rfl⟩ := read_sound hread
    exact (ih h).of_past hsplit

end Reader

/-! ## The culprit of each -/

namespace Culprit

variable {source : List Char}

theorem position_le {message : String} {position : Nat} (h : Culprit source message position) :
    position ≤ source.length := by
  have hlt : ∀ {p : Nat} {c : Char}, source[p]? = some c → p ≤ source.length := fun hc =>
    Nat.le_of_lt (List.getElem?_eq_some_iff.1 hc).1
  cases h with
  | openText _ hmark => exact hlt hmark
  | character _ hchar => exact hlt hchar
  | closeParen _ hchar => exact hlt hchar
  | openParen _ hchar => exact hlt hchar
  | number _ _ _ hchar => exact hlt hchar
  | unknownEscape _ _ _ _ hchar => exact hlt hchar
  | codePoint _ _ _ _ hchars => exact hlt (getElem?_of_cons_isPrefix_drop hchars)
  | ending => exact Nat.le_refl _

-- The characters of a token stand in the source from its start on.
theorem isPrefix_of_mem {t : Token} (ht : t ∈ (lex source 0).tokens) :
    t.chars <+: source.drop t.start := Lexeme.first?_isPrefix (first?_of_mem_lex rfl t ht)

theorem wellSpelled_of_mem {t : Token} (ht : t ∈ (lex source 0).tokens) : t.WellSpelled :=
  Lexeme.wellSpelled_of_first? (first?_of_mem_lex rfl t ht)

theorem getElem?_start_of_mem {t : Token} (ht : t ∈ (lex source 0).tokens) {c : Char}
    {cs : List Char} (hchars : t.chars = c :: cs) : source[t.start]? = some c :=
  getElem?_of_cons_isPrefix_drop (hchars ▸ isPrefix_of_mem ht)

-- What ends the tokens is a text literal without an end, or a character that starts nothing.
theorem of_lexing {e : ReadError} (h : (lex source 0).error = some e) :
    e.fault.isForeign = false ∧ Culprit source e.fault.message e.position := by
  obtain ⟨fault, p⟩ := e
  have hlex : lex source 0 = ⟨(lex source 0).tokens, some ⟨fault, p⟩⟩ := by rw [← h]
  obtain ⟨c, rest, hdrop, hfault, hgap, hnone⟩ := first?_of_lex_error hlex
  dsimp only at hdrop hfault ⊢
  have hchar := getElem?_of_drop_eq_cons hdrop
  by_cases hc : c = '"'
  · subst hc
    obtain rfl : fault = .unterminatedText := hfault
    have hbody : literalBody? rest = none := by
      dsimp only [Lexeme.first?] at hnone
      exact Option.map_eq_none_iff.1 hnone
    have hstart : ¬ Escaped source (p + 1) := not_escaped_succ_of_ne hchar (by decide)
    exact ⟨rfl, .openText h hchar fun q hq hmark =>
      escaped_of_literalBody?_eq_none (drop_succ_of_drop_eq_cons hdrop) hstart hbody hq hmark⟩
  · rw [lexFault, if_neg hc] at hfault
    subst hfault
    refine ⟨rfl, .character h hchar (fun cs => ?_) (Lexeme.first?_eq_none_of_ne hc hnone)⟩
    rw [gapLength_eq_zero_iff] at hgap ⊢
    exact hgap

/-- A text token is a body between two double quotes. Neither the start of the body nor the quote
after it is escaped. -/
theorem exists_body {t : Token} (ht : t ∈ (lex source 0).tokens) (hcls : t.cls = .text) :
    ∃ body, t.chars = '"' :: body ++ ['"'] ∧ body <+: source.drop (t.start + 1) ∧
      ¬ Escaped source (t.start + 1) ∧ ¬ Escaped source (t.start + 1 + body.length) := by
  have hspelled := wellSpelled_of_mem ht
  rw [Lexeme.WellSpelled, hcls] at hspelled
  obtain ⟨body, hchars, hbody⟩ := hspelled
  obtain ⟨rest, hrest⟩ := isPrefix_of_mem ht
  have hdrop : source.drop t.start = '"' :: (body ++ '"' :: rest) := by
    rw [← hrest, hchars]
    simp
  have hafter := drop_succ_of_drop_eq_cons hdrop
  have hstart : ¬ Escaped source (t.start + 1) :=
    not_escaped_succ_of_ne (getElem?_of_drop_eq_cons hdrop) (by decide)
  refine ⟨body, hchars, ?_, hstart, ?_⟩
  · rw [hafter]
    exact List.prefix_append body _
  · exact not_escaped_of_literalBody? hafter hstart (literalBody?_body_append hbody rest)

variable [Host]

-- A bad escape is inside its literal.
theorem of_text {t : Token} (ht : t ∈ (lex source 0).tokens) (hcls : t.cls = .text) {e : ReadError}
    (h : t.atom = .error e) :
    e.fault.isForeign = false ∧ Culprit source e.fault.message e.position := by
  obtain ⟨body, hchars, hbody, hstart, hend⟩ := exists_body ht hcls
  have hdecode : Text.decode (t.start + 1) body = .error e := by
    obtain ⟨hnumber, -⟩ | ⟨-, hdecode⟩ := Token.atom_error_cases h
    · rw [hcls] at hnumber
      cases hnumber
    · rwa [hchars, List.cons_append, List.drop_one, List.tail_cons, List.dropLast_concat]
        at hdecode
  obtain ⟨hpos, hescaped, c, cs, hat, hread⟩ := decode_error_at hbody hstart hend hdecode
  have hinside : t.start < e.position ∧ e.position < t.stop :=
    ⟨by omega, Token.position_lt_stop_of_atom h⟩
  obtain ⟨fault, p⟩ := e
  obtain ⟨hunknown, -, hfault⟩ | ⟨digits, hdigits, hinvalid, hfault⟩ :=
    Text.readEscape_error_cases hread
  · subst hfault
    exact ⟨rfl, .unknownEscape ht hcls hinside hescaped (getElem?_of_cons_isPrefix_drop hat)
      hunknown⟩
  · subst hfault
    obtain ⟨⟨-, hhex⟩, others, hothers⟩ := Text.codePointDigits?_eq_some_iff.1 hdigits
    have hletters : 'u' :: '\x7b' :: (digits ++ ['\x7d']) <+: c :: cs :=
      ⟨others, by simp [hothers]⟩
    exact ⟨rfl, .codePoint ht hcls hinside hescaped (hletters.trans hat) hhex hinvalid⟩

-- A numeral is refused by the host for its digits, or else by the reader for its value.
theorem of_number {t : Token} (ht : t ∈ (lex source 0).tokens) (hcls : t.cls = .number)
    {e : ReadError} (h : t.number = .error e) :
    (e.fault.isForeign = false ∧ Culprit source e.fault.message e.position) ∨
      Overlong source e := by
  have hspelled := wellSpelled_of_mem ht
  rw [Lexeme.WellSpelled, hcls] at hspelled
  obtain ⟨limit, hlimit, rfl⟩ | ⟨-, hrange, rfl⟩ := Token.number_eq_error_iff.1 h
  · obtain ⟨hlimit, hdigits⟩ := Host.exceeded?_eq_some_iff.1 hlimit
    exact .inr (.numeral ht ⟨hcls, hspelled⟩ (isPrefix_of_mem ht) hlimit hdigits)
  · obtain ⟨c, ds, hchars, hstart, -⟩ := id hspelled
    exact .inl ⟨rfl, .number ht ⟨hcls, hspelled⟩ (isPrefix_of_mem ht)
      (getElem?_start_of_mem ht hchars) (hstart.imp_right And.left) hrange⟩

theorem of_token {t : Token} (ht : t ∈ (lex source 0).tokens) {pending : List Pending}
    {e : ReadError} (h : t.feed pending = .error e) :
    (e.fault.isForeign = false ∧ Culprit source e.fault.message e.position) ∨
      Overlong source e := by
  obtain ⟨-, hatom⟩ | ⟨hcls, -, rfl⟩ := Token.feed_error_cases h
  · obtain ⟨hcls, hnumber⟩ | ⟨hcls, -⟩ := Token.atom_error_cases hatom
    · exact of_number ht hcls hnumber
    · exact .inl (of_text ht hcls hatom)
  · have hspelled := wellSpelled_of_mem ht
    rw [Lexeme.WellSpelled, hcls] at hspelled
    exact .inl ⟨rfl, .closeParen ht (getElem?_start_of_mem ht hspelled)⟩

theorem of_refuses {s : String} {e : ReadError} (h : (Reader.ofString s).Refuses e) :
    (e.fault.isForeign = false ∧ Culprit s.toList e.fault.message e.position) ∨
      Overlong s.toList e := by
  cases h with
  | lexing he => exact .inl (of_lexing he)
  | token ht hfeed => exact of_token ht hfeed
  | unmatched ho hcls =>
    have hspelled := wellSpelled_of_mem ho
    rw [Lexeme.WellSpelled, hcls] at hspelled
    exact .inl ⟨rfl, .openParen ho (getElem?_start_of_mem ho hspelled)⟩
  | ending => exact .inl ⟨rfl, .ending⟩

end Culprit

/-- A source with an error of the host's is longer than the limit of the host. -/
theorem Overlong.exists_limit [Host] {source : List Char} {e : ReadError} (h : Overlong source e) :
    ∃ limit, Host.digitLimit = some limit ∧ limit < source.length := by
  obtain ⟨ht, -, htext, hlimit, hdigits⟩ := h
  refine ⟨_, hlimit, hdigits.trans_le ?_⟩
  have hlength := htext.length_le
  rw [List.length_drop] at hlength
  exact List.countP_le_length.trans (by omega)

/-- Reading one expression of a source, or all of them, gives what there is to read, or an error of
the language at the character that is to blame for it, or the host's error for a numeral with more
digits than it converts. The last is ruled out for sources no longer than the limit of the host, and
for every source if the host has no limit. -/
theorem read_error_at_culprit [Host] (source : String) :
    let honest (e : ReadError) := e.fault.isForeign = false ∧ e.position ≤ source.length ∧
      Culprit source.toList e.fault.message e.position
    ((∃ v, (readValue source).1 = .ok v) ∨
        ∃ e, (readValue source).1 = .error e ∧ (honest e ∨ Overlong source.toList e)) ∧
      ((readValues source).error = none ∨
        ∃ e, (readValues source).error = some e ∧ (honest e ∨ Overlong source.toList e)) ∧
      ∀ e, Overlong source.toList e →
        ∃ limit, Host.digitLimit = some limit ∧ limit < source.length := by
  intro honest
  have hculprit : ∀ e, (Reader.ofString source).Refuses e →
      honest e ∨ Overlong source.toList e := by
    intro e he
    obtain ⟨hown, hat⟩ | hhost := Culprit.of_refuses he
    · refine .inl ⟨hown, ?_, hat⟩
      rw [← String.length_toList]
      exact hat.position_le
    · exact .inr hhost
  refine ⟨?_, ?_, fun e he => ?_⟩
  · cases hread : readValue source with
    | mk result after =>
      cases result with
      | ok v => exact .inl ⟨v, rfl⟩
      | error e => exact .inr ⟨e, rfl, hculprit e (Reader.read_refuses hread)⟩
  · cases hread : (readValues source).error with
    | none => exact .inl rfl
    | some e => exact .inr ⟨e, rfl, hculprit e (Reader.readAll_refuses hread)⟩
  · rw [← String.length_toList]
    exact he.exists_limit

/-- Neither the parenthesis in the comment nor the escaped double quote is the culprit. -/
theorem read_error_at_culprit_escaped :
    ∃ source, source = "(a ; )\n \"x\\\"\\q\")" ∧
      (readValues source).error = some ⟨.unknownEscape 'q', 13⟩ ∧
      Culprit source.toList "Unknown escape sequence \\q" 13 := by
  obtain ⟨source, hsource⟩ : ∃ source, source = "(a ; )\n \"x\\\"\\q\")" := ⟨_, rfl⟩
  have herror : (readValues source).error = some ⟨.unknownEscape 'q', 13⟩ := by
    rw [hsource]
    decide +kernel
  obtain ⟨-, hall, hlong⟩ := read_error_at_culprit source
  refine ⟨source, hsource, herror, ?_⟩
  obtain hnone | ⟨e, he, hhonest | hhost⟩ := hall
  · rw [herror] at hnone
    cases hnone
  · rw [herror] at he
    cases he
    exact hhonest.2.2
  · obtain ⟨limit, hlimit, hlt⟩ := hlong e hhost
    cases hlimit
    rw [hsource] at hlt
    exact absurd hlt (by decide +kernel)

/-- What is raised for five thousand digits is no error of the language. -/
theorem overlong_numeral_not_blamed :
    (readValue (String.ofList (List.replicate 5000 '1'))).1 = .error ⟨.tooManyDigits 5000 4300, 0⟩ ∧
      (readValues (String.ofList (List.replicate 5000 '1'))).error =
        some ⟨.tooManyDigits 5000 4300, 0⟩ ∧
      ¬ ∀ source e, (readValue source).1 = .error e → e.fault.isForeign = false := by
  have hlimit : Host.exceeded? 5000 = some 4300 := by decide
  obtain ⟨hread, -, herror⟩ := Numeral.readAll_replicate (c := '1') (by decide) hlimit
  exact ⟨hread, herror, fun h => absurd (h _ _ hread) (by decide)⟩

end MiniLisp
