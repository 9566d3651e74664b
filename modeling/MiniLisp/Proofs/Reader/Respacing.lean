import MiniLisp.Proofs.Lexing.Tiling
import MiniLisp.Proofs.Reader.Shift

/-!
# Tokens set apart anew

The words of a source can be set apart by any spacing that leaves none of them glued to the next,
and they are its tokens again (`Spaced.exists_tokens`). Where a token starts has no part in the
value that it is read as, so the values stay as well (`Expressions.of_lexemes`).
-/

namespace MiniLisp

/-! ## Texts of words and spacing -/

/-- A text of words, each with spacing after it, which sets it apart from the next. -/
inductive Spaced : List Lexeme → List Char → Prop
  | nil : Spaced [] []
  | cons {l : Lexeme} {gap cs : List Char} {ls : List Lexeme} (hgap : Spacing gap)
      (hapart : ls ≠ [] → gap ≠ []) (h : Spaced ls cs) :
      Spaced (l :: ls) (l.chars ++ (gap ++ cs))

theorem Spacing.delimited {gap : List Char} (h : Spacing gap) (hne : gap ≠ []) (cs : List Char) :
    Delimited (gap ++ cs) := by
  cases h with
  | nil => exact absurd rfl hne
  | blank hc _ => exact delimited_cons (continuesLexeme_eq_false_of_isBlank hc) _
  | comment _ _ => exact delimited_cons (by decide) _

theorem Spaced.exists_tokens {ls : List Lexeme} {cs : List Char} (h : Spaced ls cs)
    (hspelled : ∀ l ∈ ls, l.WellSpelled) (position : Nat) :
    ∃ ts, lexFrom position cs = ⟨ts, none⟩ ∧ ts.map Token.toLexeme = ls := by
  induction h generalizing position with
  | nil => exact ⟨[], lexFrom_nil position, rfl⟩
  | @cons l gap cs ls hgap hapart h ih =>
    obtain ⟨hl, hls⟩ := List.forall_mem_cons.1 hspelled
    obtain ⟨ts, hlex, hts⟩ := ih hls (position + l.chars.length + gap.length)
    have hdelim : Delimited (gap ++ cs) := by
      by_cases hne : gap = []
      · -- Only after the last word may nothing stand.
        obtain rfl : ls = [] := by
          by_contra hmore
          exact hapart hmore hne
        cases h
        rw [hne]
        exact delimited_nil
      · exact hgap.delimited hne cs
    refine ⟨⟨l, position⟩ :: ts, ?_, ?_⟩
    · rw [lexFrom_append (Lexeme.first?_of_wellSpelled hl) hdelim,
        lexFrom_gap_append hgap.gapAfter_eq, hlex]
      rfl
    · rw [List.map_cons, hts]

/-! ## Values of words -/

-- The place of a token matters only to its error.
theorem Token.atom_eq_ok_iff [Host] (t : Token) {v : Value} :
    t.atom = .ok v ↔ Token.atom ⟨t.toLexeme, 0⟩ = .ok v := by
  have hshift : Token.shift t.start ⟨t.toLexeme, 0⟩ = t := by
    rw [shift, Nat.zero_add]
  have hatom : t.atom = (Token.atom ⟨t.toLexeme, 0⟩).mapError (ReadError.shift t.start) := by
    rw [← atom_shift, hshift]
  rw [hatom]
  generalize Token.atom ⟨t.toLexeme, 0⟩ = result
  cases result with
  | error e => exact iff_of_false nofun nofun
  | ok w => exact Iff.rfl

mutual

theorem Expression.of_lexemes [Host] {ts us : List Token} {v : Value} (h : Expression ts v)
    (hus : us.map Token.toLexeme = ts.map Token.toLexeme) : Expression us v := by
  match h with
  | .atom hcls hv =>
    obtain ⟨u, rfl, hu⟩ := List.map_eq_singleton_iff.1 hus
    rw [Token.atom_eq_ok_iff, ← hu, ← Token.atom_eq_ok_iff] at hv
    rw [← congrArg Lexeme.cls hu] at hcls
    exact .atom hcls hv
  | .quoted hq h =>
    obtain ⟨q, others, rfl, hq', hothers⟩ := List.map_eq_cons_iff.1 hus
    rw [← congrArg Lexeme.cls hq'] at hq
    exact .quoted hq (h.of_lexemes hothers)
  | .list ho hc h =>
    rw [List.map_append] at hus
    obtain ⟨front, back, rfl, hfront, hback⟩ := List.map_eq_append_iff.1 hus
    obtain ⟨o, items, rfl, ho', hitems⟩ := List.map_eq_cons_iff.1 hfront
    obtain ⟨c, rfl, hc'⟩ := List.map_eq_singleton_iff.1 hback
    rw [← congrArg Lexeme.cls ho'] at ho
    rw [← congrArg Lexeme.cls hc'] at hc
    exact .list ho hc (h.of_lexemes hitems)

/-- The values of a row of expressions depend on its words alone. -/
theorem Expressions.of_lexemes [Host] {ts us : List Token} {vs : List Value} (h : Expressions ts vs)
    (hus : us.map Token.toLexeme = ts.map Token.toLexeme) : Expressions us vs := by
  match h with
  | .nil =>
    obtain rfl := List.map_eq_nil_iff.1 hus
    exact .nil
  | .cons h hs =>
    rw [List.map_append] at hus
    obtain ⟨front, back, rfl, hfront, hback⟩ := List.map_eq_append_iff.1 hus
    exact .cons (h.of_lexemes hfront) (hs.of_lexemes hback)

end

/-! ## Spacing anew -/

section

variable {source : List Char} {position : Nat} {ts : List Token} {lead body : List Char}
  (hlex : lex source position = ⟨ts, none⟩) (hlead : Spacing lead)
  (hbody : Spaced (ts.map Token.toLexeme) body)
include hlex hlead hbody

theorem lex_respaced : ∃ us, lex (lead ++ body) 0 = ⟨us, none⟩ ∧
    us.map Token.toLexeme = ts.map Token.toLexeme := by
  have hspelled : ∀ l ∈ ts.map Token.toLexeme, l.WellSpelled :=
    List.forall_mem_map.2 (wellSpelled_of_mem_lexFrom hlex)
  obtain ⟨us, hus, hwords⟩ := hbody.exists_tokens hspelled (0 + lead.length)
  refine ⟨us, ?_, hwords⟩
  rw [lex, List.drop_zero, lexFrom_gap_append hlead.gapAfter_eq, hus]

theorem readAll_respaced [Host] (hread : (Reader.ofSource source position).readAll.error = none) :
    (Reader.ofSource (lead ++ body) 0).readAll.values =
        (Reader.ofSource source position).readAll.values ∧
      (Reader.ofSource (lead ++ body) 0).readAll.error = none := by
  obtain ⟨us, hus, hwords⟩ := lex_respaced hlex hlead hbody
  have htokens : (Reader.ofSource source position).tokens = ts := congrArg Lexing.tokens hlex
  have hexpressions := readAll_sound _ hread
  rw [htokens] at hexpressions
  have hreads := (hexpressions.of_lexemes hwords).readAll (Reader.ofSource (lead ++ body) 0)
    (congrArg Lexing.tokens hus) (congrArg Lexing.error hus)
  rw [hreads]
  exact ⟨rfl, rfl⟩

end

/-- The tokens of a source tile it by longest match, which determines them. Set apart by any other
spacing, the words of a source that is lexed to its end are tokens again, with the same values. -/
theorem longest_match_survives_respacing [Host] :
    (∀ (source : List Char) (position : Nat) (lexing : Lexing),
      Tiled source position lexing ↔ lex source position = lexing) ∧
    ∀ (source : List Char) (position : Nat) (ts : List Token), lex source position = ⟨ts, none⟩ →
      ∀ lead body : List Char, Spacing lead → Spaced (ts.map Token.toLexeme) body →
        (∃ us, lex (lead ++ body) 0 = ⟨us, none⟩ ∧
          us.map Token.toLexeme = ts.map Token.toLexeme) ∧
        ((Reader.ofSource source position).readAll.error = none →
          (Reader.ofSource (lead ++ body) 0).readAll.values =
              (Reader.ofSource source position).readAll.values ∧
            (Reader.ofSource (lead ++ body) 0).readAll.error = none) := by
  refine ⟨fun source position lexing => tiled_iff, fun source position ts hlex lead body hlead
    hbody => ⟨lex_respaced hlex hlead hbody, fun hread => ?_⟩⟩
  exact readAll_respaced hlex hlead hbody hread

/-- Nothing sets the words of this source apart. -/
theorem longest_match_survives_respacing_glued :
    ∃ source lead body us, source = "1+2a!\"b\"\"c\"".toList ∧
      lead ++ body = ";0\n1 +2 a!;\n\"b\"\t\"c\" ".toList ∧
      lex (lead ++ body) 0 = ⟨us, none⟩ ∧
      us.map (·.text) = ["1", "+2", "a!", "\"b\"", "\"c\""] ∧
      (Reader.ofSource (lead ++ body) 0).readAll.values =
        (Reader.ofSource source 0).readAll.values := by
  obtain ⟨source, hsource⟩ : ∃ source, source = "1+2a!\"b\"\"c\"".toList := ⟨_, rfl⟩
  obtain ⟨ls, hls⟩ : ∃ ls : List Lexeme, ls = [⟨.number, ['1'], by simp⟩,
      ⟨.number, ['+', '2'], by simp⟩, ⟨.identifier, ['a', '!'], by simp⟩,
      ⟨.text, ['"', 'b', '"'], by simp⟩, ⟨.text, ['"', 'c', '"'], by simp⟩] := ⟨_, rfl⟩
  have hlexed : (lex source 0).error = none ∧ (lex source 0).tokens.map Token.toLexeme = ls ∧
      (Reader.ofSource source 0).readAll.error = none := by
    rw [hsource, hls]
    decide +kernel
  obtain ⟨herror, hwords, hread⟩ := hlexed
  have hlex : lex source 0 = ⟨(lex source 0).tokens, none⟩ := by
    rw [← herror]
  have hspace : Spacing [' '] := .blank (by decide) .nil
  have htab : Spacing ['\t'] := .blank (by decide) .nil
  have hcomment : Spacing [';', '\n'] := .comment List.not_mem_nil .nil
  have hlead : Spacing [';', '0', '\n'] := .comment (show '\n' ∉ ['0'] by decide) .nil
  obtain ⟨body, hbody, htext⟩ : ∃ body, Spaced ls body ∧
      [';', '0', '\n'] ++ body = ";0\n1 +2 a!;\n\"b\"\t\"c\" ".toList := by
    rw [hls]
    have hapart {c : Char} {cs : List Char} {words : List Lexeme} :
        words ≠ [] → c :: cs ≠ [] := fun _ => List.cons_ne_nil c cs
    refine ⟨_, .cons hspace hapart (.cons hspace hapart (.cons hcomment hapart
      (.cons htab hapart (.cons hspace hapart .nil)))), by decide⟩
  rw [← hwords] at hbody
  obtain ⟨⟨us, hus, hback⟩, hvalues⟩ :=
    longest_match_survives_respacing.2 source 0 _ hlex _ body hlead hbody
  refine ⟨source, _, body, us, hsource, htext, hus, ?_, (hvalues hread).1⟩
  have htexts : us.map (·.text) = (us.map Token.toLexeme).map (String.ofList ·.chars) := by
    rw [List.map_map]
    rfl
  rw [htexts, hback, hwords, hls]
  decide

end MiniLisp
