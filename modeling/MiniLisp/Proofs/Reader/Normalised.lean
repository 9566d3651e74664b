import MiniLisp.Proofs.Reader.RoundTrip

/-!
# Source text in normal form

The values read off a source are all readable (`Expression.readable`), so their renderings in a row
read back as the same values: source text has a normal form. A value determines the classes of the
tokens that spell it (`Expression.classes_eq`). So the tokens of the normal form are those of the
source, class by class, however the source spaces, glues, escapes or signs them
(`normal_form_reads_back`).
-/

namespace MiniLisp

/-- The class of the word that a name is. -/
def Name.cls (n : Name) : TokenClass :=
  if n.text.toList.all isOperatorChar then .operator else .identifier

namespace Value

mutual

/-- The classes of the tokens that spell a value. No token spells the unit value or a function. -/
def classes : Value → List TokenClass
  | .number _ => [.number]
  | .text _ => [.text]
  | .boolean _ => [.identifier]
  | .symbol name => [name.cls]
  | .quoted inner => .quote :: inner.classes
  | .sequence items => .openParen :: classesEach items ++ [.closeParen]
  | .unit | .function .. => []

def classesEach : List Value → List TokenClass
  | [] => []
  | v :: vs => v.classes ++ classesEach vs

end

end Value

/-! ## Words -/

section

variable {cs : List Char} (hne : cs ≠ [])

theorem cls_ofChars_of_isOperator (h : IsOperator cs) : (Name.ofChars cs hne).cls = .operator := by
  rw [Name.cls, Name.toList_text_ofChars, if_pos (List.all_eq_true.2 h.2)]

theorem cls_ofChars_of_isIdentifier (h : IsIdentifier cs) :
    (Name.ofChars cs hne).cls = .identifier := by
  have hall : cs.all isOperatorChar = false := by
    obtain ⟨c, word, ending, rfl, hc, -⟩ := h
    obtain ⟨-, -, -, -, -, -, hoperator, -⟩ := isIdentifierStart_excludes hc
    rw [List.cons_append, List.all_cons, hoperator, Bool.false_and]
  rw [Name.cls, Name.toList_text_ofChars, hall]
  rfl

end

namespace Token

variable {t : Token} {v : Value}

-- A word is spelled as an identifier or as an operator.
theorem word_cases (hcls : t.cls.isAtom) (hnumber : t.cls ≠ .number) (htext : t.cls ≠ .text)
    (hw : t.WellSpelled) :
    (t.cls = .identifier ∧ IsIdentifier t.chars) ∨ (t.cls = .operator ∧ IsOperator t.chars) := by
  unfold Lexeme.WellSpelled at hw
  cases hc : t.cls <;> simp_all [TokenClass.isAtom]

/-- A token with a value spells a readable one, and is of the class that the value has. -/
theorem readable_of_atom [Host] (hcls : t.cls.isAtom) (hw : t.WellSpelled) (hv : t.atom = .ok v) :
    v.Readable ∧ v.classes = [t.cls] := by
  obtain ⟨hc, n, hn, rfl⟩ | ⟨hc, s, rfl⟩ | ⟨⟨hnumber, htext⟩, h⟩ := t.atom_ok_cases hv
  · exact ⟨.number hn, by rw [hc, Value.classes]⟩
  · exact ⟨.text s, by rw [hc, Value.classes]⟩
  obtain ⟨hc, hid⟩ | ⟨hc, hop⟩ := word_cases hcls hnumber htext hw
  · obtain ⟨-, rfl⟩ | ⟨-, rfl⟩ | ⟨⟨ht, hf⟩, rfl⟩ := h
    · exact ⟨.boolean true, by rw [hc, Value.classes]⟩
    · exact ⟨.boolean false, by rw [hc, Value.classes]⟩
    · refine ⟨.symbol (.inl ⟨by rwa [Name.toList_text_ofChars], ?_, ?_⟩), ?_⟩
      · rwa [Ne, ← String.toList_inj, Name.toList_text_ofChars]
      · rwa [Ne, ← String.toList_inj, Name.toList_text_ofChars]
      · rw [hc, Value.classes, cls_ofChars_of_isIdentifier _ hid]
  · obtain ⟨ht, hf⟩ := Value.ne_booleans_of_isOperator hop
    obtain ⟨h, -⟩ | ⟨h, -⟩ | ⟨-, rfl⟩ := h
    · exact absurd h ht
    · exact absurd h hf
    · refine ⟨.symbol (.inr (by rwa [Name.toList_text_ofChars])), ?_⟩
      rw [hc, Value.classes, cls_ofChars_of_isOperator _ hop]

end Token

/-! ## Expressions -/

mutual

/-- Well-spelled tokens spell readable values only. -/
theorem Expression.readable [Host] {ts : List Token} {v : Value} (h : Expression ts v)
    (hw : ∀ t ∈ ts, t.WellSpelled) : v.Readable := by
  match h with
  | .atom hcls hv => exact (Token.readable_of_atom hcls (hw _ (by simp)) hv).1
  | .quoted _ h => exact .quoted (h.readable fun t ht => hw t (by simp [ht]))
  | .list _ _ h => exact .sequence (h.readable fun t ht => hw t (by simp [ht]))

theorem Expressions.readable [Host] {ts : List Token} {vs : List Value} (h : Expressions ts vs)
    (hw : ∀ t ∈ ts, t.WellSpelled) : ∀ v ∈ vs, v.Readable := by
  match h with
  | .nil => exact List.forall_mem_nil _
  | .cons h hs =>
    obtain ⟨hw, hws⟩ := List.forall_mem_append.1 hw
    exact List.forall_mem_cons.2 ⟨h.readable hw, hs.readable hws⟩

end

mutual

/-- The classes of the tokens of an expression depend on its value alone. -/
theorem Expression.classes_eq [Host] {ts : List Token} {v : Value} (h : Expression ts v)
    (hw : ∀ t ∈ ts, t.WellSpelled) : ts.map (·.cls) = v.classes := by
  match h with
  | .atom hcls hv => exact (Token.readable_of_atom hcls (hw _ (by simp)) hv).2.symm
  | .quoted hq h =>
    have hinner := h.classes_eq fun t ht => hw t (by simp [ht])
    rw [List.map_cons, hq, hinner, Value.classes]
  | .list ho hc h =>
    have hitems := h.classes_eq fun t ht => hw t (by simp [ht])
    rw [List.map_append, List.map_cons, List.map_singleton, ho, hc, hitems, Value.classes]

theorem Expressions.classes_eq [Host] {ts : List Token} {vs : List Value} (h : Expressions ts vs)
    (hw : ∀ t ∈ ts, t.WellSpelled) : ts.map (·.cls) = Value.classesEach vs := by
  match h with
  | .nil => rfl
  | .cons h hs =>
    obtain ⟨hw, hws⟩ := List.forall_mem_append.1 hw
    rw [List.map_append, h.classes_eq hw, hs.classes_eq hws, Value.classesEach]

end

/-! ## The normal form -/

/-- A source that is read without an error has a normal form: the renderings of its values, with
single spaces between them. The values are all readable, they are what the normal form reads as,
and the normal form is cut into tokens of the same classes as the source. -/
theorem normal_form_reads_back [Host] (source : String) (vs : List Value)
    (hvalues : (readValues source).values = vs) (herror : (readValues source).error = none) :
    (∀ v ∈ vs, v.Readable) ∧
      (readValues (" ".intercalate (vs.map Value.render))).values = vs ∧
      (readValues (" ".intercalate (vs.map Value.render))).error = none ∧
      ∃ ts us, lex source.toList 0 = ⟨ts, none⟩ ∧
        lex (" ".intercalate (vs.map Value.render)).toList 0 = ⟨us, none⟩ ∧
        us.map (·.cls) = ts.map (·.cls) := by
  obtain ⟨ts, hts, hexpressions⟩ := readValues_sound herror
  rw [hvalues] at hexpressions
  have hw : ∀ t ∈ ts, t.WellSpelled := wellSpelled_of_mem_lexFrom hts
  have hreadable := hexpressions.readable hw
  obtain ⟨us, hexpressions', hus⟩ := Value.expressions_renderRow hreadable
  have hw' : ∀ t ∈ us, t.WellSpelled := wellSpelled_of_mem_lexFrom hus
  obtain ⟨hback, hend⟩ := Value.readValues_renderRow hreadable
  exact ⟨hreadable, hback, hend, ts, us, hts, hus,
    (hexpressions'.classes_eq hw').trans (hexpressions.classes_eq hw).symm⟩

/-- The normal form drops signs and zeros that say nothing, digits of another script, comments and
escapes with a shorter form. It separates words that a source may leave unseparated. -/
theorem normal_form_reads_back_glued :
    ∃ source normal, source = "1+02'( a?b;c\n\t-0 \u0663\"\\u{41}\\/\")" ∧
      normal = "1 2 '(a? b 0 3 \"A/\")" ∧ (readValues source).error = none ∧
      (readValues normal).values = (readValues source).values ∧
      (readValues normal).error = none ∧ (∀ v ∈ (readValues source).values, v.Readable) ∧
      (lex normal.toList 0).tokens.map (·.cls) = (lex source.toList 0).tokens.map (·.cls) := by
  have herror : (readValues "1+02'( a?b;c\n\t-0 \u0663\"\\u{41}\\/\")").error = none := by
    decide +kernel
  obtain ⟨hreadable, hback, hend, ts, us, hts, hus, hclasses⟩ :=
    normal_form_reads_back _ _ rfl herror
  refine ⟨_, _, rfl, by decide +kernel, herror, hback, hend, hreadable, ?_⟩
  rw [hts, hus, hclasses]

end MiniLisp
