import Mathlib.Data.Nat.Digits.Defs
import MiniLisp.Proofs.Lexing.Longest
import MiniLisp.Proofs.Reader.Position
import MiniLisp.Value.Render

/-!
# Rendered values read back

A readable value is made of what source text can spell. Its rendering reads back as the same value
and leaves nothing unread, and a row of renderings with single spaces between them reads back as the
row. Both come from `Readable.spelled`: wherever the rendering of a value stands, before a
delimiter, its tokens are an expression with that value.
-/

namespace MiniLisp

/-- A name that is a word of its own in source text: an operator, or an identifier that does not
spell a boolean. -/
def Name.Readable (n : Name) : Prop :=
  (IsIdentifier n.text.toList ∧ n.text ≠ "true" ∧ n.text ≠ "false") ∨ IsOperator n.text.toList

namespace Value

/-- A value that source text can spell. Every text is one, since no character is a surrogate. -/
inductive Readable : Value → Prop
  | number {n : Int} (h : Number.InRange n) : Readable (.number n)
  | boolean (b : Bool) : Readable (.boolean b)
  | text (s : String) : Readable (.text s)
  | symbol {name : Name} (h : name.Readable) : Readable (.symbol name)
  | quoted {v : Value} (h : Readable v) : Readable (.quoted v)
  | sequence {items : List Value} (h : ∀ v ∈ items, Readable v) : Readable (.sequence items)

/-- Renderings in a row, with single spaces between them. -/
def renderRow (vs : List Value) : String := " ".intercalate (vs.map render)

/-! ## Words and spaces -/

-- Only a negative number is written with a sign, and then digits follow it.
theorem isNumeral_repr (n : Int) : IsNumeral n.repr.toList := by
  cases n with
  | ofNat n =>
    rw [Text.toList_repr_ofNat]
    cases hds : Nat.toDigits 10 n with
    | nil => exact absurd hds Nat.toDigits_ne_nil
    | cons d ds =>
      have hall : ∀ e ∈ d :: ds, Text.isDecimalDigit e := fun e he =>
        Text.isDecimalDigit_of_mem_toDigits (n := n) (by rwa [hds])
      exact ⟨d, ds, rfl, .inl (hall d (by simp)), fun e he => hall e (by simp [he])⟩
  | negSucc n =>
    rw [Text.toList_repr_negSucc]
    exact ⟨'-', _, rfl, .inr ⟨rfl, Nat.toDigits_ne_nil⟩,
      fun d hd => Text.isDecimalDigit_of_mem_toDigits hd⟩

-- A number is written with no more digits than its magnitude needs.
theorem digitCount_repr_le {n : Int} {count : Nat} (hcount : 0 < count)
    (h : n.natAbs < 10 ^ count) : Text.digitCount n.repr.toList ≤ count := by
  cases n with
  | ofNat n =>
    rw [Text.toList_repr_ofNat]
    exact List.countP_le_length.trans (Nat.toDigits_length 10 n count hcount h)
  | negSucc n =>
    have hsign : ¬ Text.isDecimalDigit '-' = true := by decide
    rw [Text.toList_repr_negSucc, Text.digitCount, List.countP_cons_of_neg hsign]
    exact List.countP_le_length.trans (Nat.toDigits_length 10 (n + 1) count hcount h)

-- No letter is an operator character, so an operator spells no boolean.
theorem ne_booleans_of_isOperator {cs : List Char} (h : IsOperator cs) :
    cs ≠ "true".toList ∧ cs ≠ "false".toList := by
  constructor <;> rintro rfl
  · exact absurd (h.2 't' (by decide)) (by decide)
  · exact absurd (h.2 'f' (by decide)) (by decide)

theorem lexFrom_space (position : Nat) (cs : List Char) :
    lexFrom position (' ' :: cs) = lexFrom (position + 1) cs :=
  lexFrom_blank (by decide) position cs

/-! ## Values of one token -/

section

variable [Host]

/-- Wherever the rendering of a value stands before a delimiter, it is lexed on its own, into an
expression with that value. -/
def Spelled (v : Value) : Prop :=
  ∀ position rest, Delimited rest → ∃ ts, Expression ts v ∧
    lexFrom position (v.render.toList ++ rest) =
      (lexFrom (position + v.render.toList.length) rest).prepend ts

theorem spelled_of_lexeme {v : Value} {cls : TokenClass} {chars : List Char} {hne : chars ≠ []}
    (hrender : v.render.toList = chars) (hl : Lexeme.WellSpelled ⟨cls, chars, hne⟩)
    (hcls : cls.isAtom) (hatom : ∀ start, Token.atom ⟨⟨cls, chars, hne⟩, start⟩ = .ok v) :
    v.Spelled := by
  intro position rest hr
  refine ⟨[⟨⟨cls, chars, hne⟩, position⟩], .atom hcls (hatom position), ?_⟩
  rw [hrender]
  exact lexFrom_append (Lexeme.first?_of_wellSpelled hl) hr position

theorem spelled_number {n : Int} (h : Number.InRange n) : (number n).Spelled := by
  have hnumeral := isNumeral_repr n
  have hne : n.repr.toList ≠ [] := by
    obtain ⟨c, cs, hchars, -⟩ := hnumeral
    rw [hchars]
    exact List.cons_ne_nil c cs
  have hrender : (number n).render.toList = n.repr.toList := by rw [render]
  have hspelled : Lexeme.WellSpelled ⟨.number, n.repr.toList, hne⟩ := hnumeral
  refine spelled_of_lexeme hrender hspelled rfl fun start => ?_
  -- A number in the range has at most 19 digits, which every host converts.
  have hdigits : Text.digitCount n.repr.toList ≤ 19 := by
    refine digitCount_repr_le (by decide) ?_
    unfold Number.InRange Number.least Number.greatest at h
    omega
  refine Token.number_eq_ok_iff.2 ⟨Host.exceeded?_eq_none_of_le (hdigits.trans (by decide)), ?_⟩
  rw [Text.intOfDigits_repr]
  exact ⟨h, rfl⟩

theorem spelled_boolean (b : Bool) : (boolean b).Spelled := by
  have htrue : IsIdentifier "true".toList :=
    ⟨'t', "rue".toList, [], rfl, by decide, List.all_eq_true.1 (by decide), .inl rfl⟩
  have hfalse : IsIdentifier "false".toList :=
    ⟨'f', "alse".toList, [], rfl, by decide, List.all_eq_true.1 (by decide), .inl rfl⟩
  cases b with
  | true =>
    have hspelled : Lexeme.WellSpelled ⟨.identifier, "true".toList, by decide⟩ := htrue
    exact spelled_of_lexeme rfl hspelled rfl fun _ => rfl
  | false =>
    have hspelled : Lexeme.WellSpelled ⟨.identifier, "false".toList, by decide⟩ := hfalse
    exact spelled_of_lexeme rfl hspelled rfl fun _ => rfl

theorem spelled_text (s : String) : (text s).Spelled := by
  have hbody := literalBody?_encode s.toList []
  have hrender : (text s).render.toList = '"' :: (Text.encode s.toList ++ ['"']) := by
    rw [render, Text.literal, String.toList_ofList]
    rfl
  have hspelled : Lexeme.WellSpelled ⟨.text, '"' :: (Text.encode s.toList ++ ['"']), by simp⟩ :=
    ⟨_, rfl, hbody⟩
  refine spelled_of_lexeme hrender hspelled rfl fun start => ?_
  have hdecode := Text.decode_encode (start + 1) s.toList
  simp [Token.atom, hdecode, Except.map]

-- A name that spells no boolean is the symbol that its word stands for.
theorem atom_of_ne_booleans {l : Lexeme} (hcls : l.cls = .identifier ∨ l.cls = .operator)
    (ht : l.chars ≠ "true".toList) (hf : l.chars ≠ "false".toList) (start : Nat) :
    Token.atom ⟨l, start⟩ = .ok (.symbol (Name.ofChars l.chars l.chars_ne_nil)) := by
  unfold Token.atom
  rcases hcls with hcls | hcls <;> simp only [hcls, if_neg ht, if_neg hf]

theorem spelled_symbol {name : Name} (h : name.Readable) : (symbol name).Spelled := by
  have hne : name.text.toList ≠ [] := by simpa using name.text_ne_empty
  have hname : Name.ofChars name.text.toList hne = name := by
    ext1
    exact String.ofList_toList
  have hatom : ∀ cls, cls = .identifier ∨ cls = .operator → name.text.toList ≠ "true".toList →
      name.text.toList ≠ "false".toList → ∀ start,
      Token.atom ⟨⟨cls, name.text.toList, hne⟩, start⟩ = .ok (.symbol name) := by
    intro cls hcls ht hf start
    rw [atom_of_ne_booleans hcls ht hf, hname]
  rcases h with ⟨hid, ht, hf⟩ | hop
  · have hspelled : Lexeme.WellSpelled ⟨.identifier, name.text.toList, hne⟩ := hid
    exact spelled_of_lexeme rfl hspelled rfl
      (hatom _ (.inl rfl) (String.toList_inj.not.2 ht) (String.toList_inj.not.2 hf))
  · have hspelled : Lexeme.WellSpelled ⟨.operator, name.text.toList, hne⟩ := hop
    obtain ⟨ht, hf⟩ := ne_booleans_of_isOperator hop
    exact spelled_of_lexeme rfl hspelled rfl (hatom _ (.inr rfl) ht hf)

/-! ## Nested values -/

theorem Spelled.quoted {v : Value} (h : v.Spelled) : (quoted v).Spelled := by
  intro position rest hr
  obtain ⟨ts, hts, hlex⟩ := h (position + 1) rest hr
  have hquote : ∀ cs, Lexeme.first? ('\'' :: cs) = some ⟨.quote, ['\''], by simp⟩ := fun _ => rfl
  have hrender : (Value.quoted v).render.toList = '\'' :: v.render.toList := by
    rw [render, String.toList_append]
    rfl
  refine ⟨⟨⟨.quote, ['\''], by simp⟩, position⟩ :: ts, .quoted rfl hts, ?_⟩
  rw [hrender, List.cons_append, lexFrom_of_first? (hquote _)]
  simp only [List.length_singleton, List.drop_succ_cons, List.drop_zero]
  rw [hlex, Lexing.prepend_prepend, List.length_cons, Nat.add_right_comm, Nat.add_assoc]
  rfl

theorem lexFrom_renderRow {vs : List Value} (h : ∀ v ∈ vs, v.Spelled) (position : Nat)
    {rest : List Char} (hr : Delimited rest) : ∃ ts, Expressions ts vs ∧
      lexFrom position ((renderRow vs).toList ++ rest) =
        (lexFrom (position + (renderRow vs).toList.length) rest).prepend ts := by
  induction vs generalizing position with
  | nil => exact ⟨[], .nil, rfl⟩
  | cons v vs ih =>
    cases vs with
    | nil =>
      obtain ⟨ts, hts, hlex⟩ := h v (by simp) position rest hr
      exact ⟨ts, hts.single, by simpa [renderRow] using hlex⟩
    | cons w vs =>
      have hrow : (renderRow (v :: w :: vs)).toList =
          v.render.toList ++ ' ' :: (renderRow (w :: vs)).toList := by
        simp [renderRow]
      -- The space keeps the first rendering from running on, and is skipped before the others.
      have hspace : Delimited (' ' :: ((renderRow (w :: vs)).toList ++ rest)) :=
        delimited_cons (by decide) _
      obtain ⟨us, hus, hlex'⟩ := ih (fun u hu => h u (by simp [hu]))
        (position + v.render.toList.length + 1)
      obtain ⟨ts, hts, hlex⟩ := h v (by simp) position _ hspace
      refine ⟨ts ++ us, .cons hts hus, ?_⟩
      rw [hrow, List.append_assoc, List.cons_append, hlex, lexFrom_space, hlex',
        Lexing.prepend_prepend, List.length_append, List.length_cons]
      congr 2
      omega

theorem Spelled.sequence {items : List Value} (h : ∀ v ∈ items, v.Spelled) :
    (sequence items).Spelled := by
  intro position rest hr
  have hopen : ∀ cs, Lexeme.first? ('(' :: cs) = some ⟨.openParen, ['('], by simp⟩ := fun _ => rfl
  have hclose : ∀ cs, Lexeme.first? (')' :: cs) = some ⟨.closeParen, [')'], by simp⟩ :=
    fun _ => rfl
  have hdelim : Delimited (')' :: rest) := delimited_cons (by decide) rest
  have hrender : (Value.sequence items).render.toList =
      '(' :: ((renderRow items).toList ++ [')']) := by
    rw [render, String.toList_append, String.toList_append, renderEach_eq_map]
    rfl
  obtain ⟨ts, hts, hlex⟩ := lexFrom_renderRow h (position + 1) hdelim
  let o : Token := ⟨⟨.openParen, ['('], by simp⟩, position⟩
  let c : Token := ⟨⟨.closeParen, [')'], by simp⟩, position + 1 + (renderRow items).toList.length⟩
  refine ⟨o :: ts ++ [c], .list rfl rfl hts, ?_⟩
  rw [hrender, List.cons_append, lexFrom_of_first? (hopen _)]
  simp only [List.length_singleton, List.drop_succ_cons, List.drop_zero]
  rw [List.append_assoc, List.singleton_append, hlex, lexFrom_of_first? (hclose _)]
  simp only [List.length_singleton, List.drop_succ_cons, List.drop_zero]
  rw [Lexing.prepend_prepend, Lexing.prepend_prepend]
  simp only [List.length_cons, List.length_append, List.length_nil]
  congr 2
  omega

/-- The rendering of a readable value is spelled in full. -/
theorem Readable.spelled {v : Value} (h : v.Readable) : v.Spelled := by
  induction h with
  | number h => exact spelled_number h
  | boolean b => exact spelled_boolean b
  | text s => exact spelled_text s
  | symbol h => exact spelled_symbol h
  | quoted _ ih => exact ih.quoted
  | sequence _ ih => exact Spelled.sequence ih

-- The tokens of a row of renderings are expressions with the values of the row.
theorem expressions_renderRow {vs : List Value} (h : ∀ v ∈ vs, v.Readable) :
    ∃ ts, Expressions ts vs ∧ lex (renderRow vs).toList 0 = ⟨ts, none⟩ := by
  obtain ⟨ts, hts, hlex⟩ := lexFrom_renderRow (fun v hv => (h v hv).spelled) 0 delimited_nil
  rw [List.append_nil, prepend_lexFrom_nil] at hlex
  exact ⟨ts, hts, hlex⟩

theorem readValue_render {v : Value} (h : v.Readable) :
    (readValue v.render).1 = .ok v ∧ (readValue v.render).2.rest = "" := by
  obtain ⟨ts, hts, hlex⟩ := h.spelled 0 [] delimited_nil
  rw [List.append_nil, prepend_lexFrom_nil] at hlex
  have htokens : (Reader.ofString v.render).tokens = ts ++ [] := by
    rw [List.append_nil]
    exact congrArg Lexing.tokens hlex
  have herror : (Reader.ofString v.render).error = none := congrArg Lexing.error hlex
  rw [readValue, hts.read _ htokens]
  refine ⟨rfl, ((Reader.inPlace_ofString _).past htokens).rest_eq_empty ?_ ?_⟩
  · exact Reader.tokens_past _ htokens
  · rw [Reader.error_past, herror]

theorem readValues_renderRow {vs : List Value} (h : ∀ v ∈ vs, v.Readable) :
    (readValues (renderRow vs)).values = vs ∧ (readValues (renderRow vs)).error = none := by
  obtain ⟨ts, hts, hlex⟩ := expressions_renderRow h
  rw [readValues, hts.readAll _ (congrArg Lexing.tokens hlex) (congrArg Lexing.error hlex)]
  exact ⟨rfl, rfl⟩

/-- Rendering loses nothing: a readable value reads back from its rendering, which is read to its
end, and readable values in a row read back from their renderings in a row. -/
theorem readable_reads_back :
    (∀ v : Value, v.Readable →
      (readValue v.render).1 = .ok v ∧ (readValue v.render).2.rest = "") ∧
    ∀ vs : List Value, (∀ v ∈ vs, v.Readable) →
      (readValues (" ".intercalate (vs.map render))).values = vs ∧
        (readValues (" ".intercalate (vs.map render))).error = none :=
  ⟨fun _ h => readValue_render h, fun _ h => readValues_renderRow h⟩

end

theorem readable_reads_back_nested :
    (readValue "'(-9223372036854775808 true \"say \\\"hi\\\"\\\\\" - empty?)").1 =
        .ok (quoted (sequence [number (-9223372036854775808), boolean true,
          text "say \"hi\"\\", symbol ⟨"-", by decide⟩, symbol ⟨"empty?", by decide⟩])) ∧
      (readValues "-1 \"-1\"").values = [number (-1), text "-1"] := by
  have hminus : (symbol ⟨"-", by decide⟩).Readable :=
    .symbol (.inr ⟨by decide, List.all_eq_true.1 (by decide)⟩)
  have hempty : (symbol ⟨"empty?", by decide⟩).Readable :=
    .symbol (.inl ⟨⟨'e', "mpty".toList, ['?'], by decide, by decide, List.all_eq_true.1 (by decide),
      .inr (.inl rfl)⟩, by decide, by decide⟩)
  have hlist : (quoted (sequence [number (-9223372036854775808), boolean true,
      text "say \"hi\"\\", symbol ⟨"-", by decide⟩, symbol ⟨"empty?", by decide⟩])).Readable := by
    refine .quoted (.sequence ?_)
    simp only [List.forall_mem_cons]
    exact ⟨.number (by decide), .boolean true, .text _, hminus, hempty, by simp⟩
  have hrow : ∀ v ∈ [number (-1), text "-1"], v.Readable := by
    simp only [List.forall_mem_cons]
    exact ⟨.number (by decide), .text _, by simp⟩
  refine ⟨?_, ?_⟩
  · rw [← (readable_reads_back.1 _ hlist).1]
    exact congrArg (fun source => (readValue source).1) (by decide +kernel)
  · rw [← (readable_reads_back.2 _ hrow).1]
    exact congrArg (fun source => (readValues source).values) (by decide +kernel)

end Value

end MiniLisp
