import MiniLisp.Proofs.Reader.Position
import MiniLisp.Proofs.Reader.Shift

/-!
# What is left of a source

Reading one expression leaves a text that is read as what follows the expression in the source:
to the same values, and to the same error further on (`Reader.InPlace.shifted_rest`). What was read
does not depend on what is left (`Expression.readValue_append`). So it makes no difference whether a
source is read at once or one expression at a time (`read_one_then_rest`).
-/

namespace MiniLisp

namespace Reader

variable {r : Reader}

theorem toList_rest (r : Reader) : r.rest.toList = r.source.drop (skipGap r.source r.position) :=
  String.toList_ofList

-- What a reader leaves starts with no gap.
theorem gapLength_rest (hp : r.position ≤ r.source.length) :
    gapLength false r.rest.toList = 0 := by
  rw [toList_rest, skipGap_of_le hp, ← List.drop_drop]
  exact gapLength_drop false _

theorem length_rest (hp : r.position ≤ r.source.length) :
    r.source.length = r.rest.length + skipGap r.source r.position := by
  have hle := gapLength_le false (r.source.drop r.position)
  rw [List.length_drop] at hle
  rw [← String.length_toList, toList_rest, List.length_drop, skipGap_of_le hp]
  omega

/-- A reader in its place is a reader of what it leaves, further on. -/
theorem InPlace.shifted_rest (h : r.InPlace) (hp : r.position ≤ r.source.length) :
    Shifted (skipGap r.source r.position) (ofString r.rest) r := by
  have hlex : (lexFrom 0 r.rest.toList).shift (skipGap r.source r.position) =
      ⟨r.tokens, r.error⟩ := by
    rw [← lexFrom_shift, Nat.zero_add, toList_rest, skipGap_of_le hp, ← List.drop_drop,
      lexFrom_drop_gap]
    exact h
  refine ⟨(congrArg Lexing.tokens hlex).symm, (congrArg Lexing.error hlex).symm, ?_⟩
  rw [length_rest hp, ← String.length_toList]
  rfl

end Reader

-- A blank before a text is passed over with the gap of the text.
theorem drop_skipGap_append_space (xs cs : List Char) :
    (xs ++ ' ' :: cs).drop (skipGap (xs ++ ' ' :: cs) xs.length) = cs.drop (skipGap cs 0) := by
  have hgap : gapLength false (' ' :: cs) = gapLength false cs + 1 :=
    gapLength_cons_of_some (by decide) cs
  have hle : xs.length ≤ (xs ++ ' ' :: cs).length := by simp
  rw [skipGap, skipGap, Nat.min_eq_left hle, List.drop_left, hgap, Nat.zero_min, Nat.zero_add,
    List.drop_zero, ← List.drop_drop, List.drop_left, List.drop_succ_cons]

/-! ## What was read -/

section

variable [Host]

/-- A source starts with the expression `v`: the tokens `ts`, which take up the text `xs`. -/
structure StartsWith (source : String) (v : Value) (ts : List Token) (xs : List Char) : Prop where
  expression : Expression ts v
  stop : stopAfter 0 ts = xs.length
  takenUp : ∃ ys, source.toList = xs ++ ys ∧ TakenUp 0 xs ts ys

/-- A value comes from an expression at the start of the source. The reader is left at its end. -/
theorem exists_startsWith {source : String} {v : Value} {after : Reader}
    (h : readValue source = (.ok v, after)) : ∃ ts xs, StartsWith source v ts xs ∧
      after.InPlace ∧ after.source = source.toList ∧ after.position = xs.length := by
  obtain ⟨ts, rest, htokens, hexpression, rfl⟩ := read_sound h
  obtain ⟨xs, ys, hsource, hstop, -, htaken⟩ :=
    lexFrom_eq_append (Reader.lexFrom_of_tokens htokens)
  rw [Nat.zero_add] at hstop
  refine ⟨ts, xs, ⟨hexpression, hstop, ys, hsource, htaken⟩, ?_, ?_, ?_⟩
  · exact (Reader.inPlace_ofString source).past htokens
  · rw [Reader.source_past]
    rfl
  · rw [Reader.position_past]
    exact hstop

namespace StartsWith

variable {source : String} {v : Value} {ts : List Token} {xs : List Char}

theorem take_length (h : StartsWith source v ts xs) : source.toList.take xs.length = xs := by
  obtain ⟨ys, hsource, -⟩ := h.takenUp
  rw [hsource, List.take_left]

theorem length_le (h : StartsWith source v ts xs) : xs.length ≤ source.toList.length := by
  obtain ⟨ys, hsource, -⟩ := h.takenUp
  rw [hsource, List.length_append]
  exact Nat.le_add_right _ _

theorem length_pos (h : StartsWith source v ts xs) : 0 < xs.length := by
  obtain ⟨ys, -, htaken⟩ := h.takenUp
  exact htaken.length_pos h.expression.ne_nil

end StartsWith

/-- The text of an expression reads as the expression, whatever text stands after a blank. -/
theorem StartsWith.readValue_append {source : String} {v : Value} {ts : List Token} {xs : List Char}
    (h : StartsWith source v ts xs) (text : String) :
    (readValue (String.ofList xs ++ " " ++ text)).1 = .ok v ∧
      (readValue (String.ofList xs ++ " " ++ text)).2.rest =
        String.ofList (text.toList.drop (skipGap text.toList 0)) := by
  obtain ⟨ys, -, htaken⟩ := h.takenUp
  have hchars : (String.ofList xs ++ " " ++ text).toList = xs ++ ' ' :: text.toList := by simp
  have hblank : Delimited (' ' :: text.toList) := delimited_cons (by decide) text.toList
  have hlex := htaken _ (hblank.lendsNoMore ys)
  rw [← hchars] at hlex
  have htokens : (Reader.ofString (String.ofList xs ++ " " ++ text)).tokens = ts ++ _ :=
    congrArg Lexing.tokens hlex
  rw [readValue, h.expression.read _ htokens]
  refine ⟨rfl, ?_⟩
  rw [Reader.rest, Reader.position_past, Reader.source_past]
  change String.ofList ((String.ofList xs ++ " " ++ text).toList.drop
    (skipGap (String.ofList xs ++ " " ++ text).toList (stopAfter 0 ts))) = _
  rw [hchars, h.stop, drop_skipGap_append_space]

/-! ## What is read next -/

-- A value that can be read is the first of all values, and the reader goes on from there.
theorem readValues_of_readValue_ok {source : String} {v : Value} {after : Reader}
    (h : readValue source = (.ok v, after)) :
    (readValues source).values = v :: after.readAll.values ∧
      (readValues source).error = after.readAll.error := by
  obtain ⟨ts, rest, htokens, hexpression, -⟩ := read_sound h
  have hne : (Reader.ofString source).tokens ≠ [] := by
    rw [htokens]
    exact fun hnil => hexpression.ne_nil (List.append_eq_nil_iff.1 hnil).1
  rw [readValues, Reader.readAll_of_read_ok hne h]
  exact ⟨rfl, rfl⟩

-- A source in which no expression can be read is blank, or fails with the same error at once.
theorem readValues_of_readValue_error {source : String} {e : ReadError} {after : Reader}
    (h : readValue source = (.error e, after)) : (readValues source).values = [] ∧
      (skipGap source.toList 0 = source.length ∧ (readValues source).error = none ∨
        (readValues source).error = some e) := by
  cases htokens : (Reader.ofString source).tokens with
  | cons t ts =>
    have hne : (Reader.ofString source).tokens ≠ [] := by
      rw [htokens]
      exact List.cons_ne_nil t ts
    rw [readValues, Reader.readAll_of_read_error hne h]
    exact ⟨rfl, .inr rfl⟩
  | nil =>
    rw [readValue, Reader.read, htokens, Reader.readFrom] at h
    cases herror : (Reader.ofString source).error with
    | some e' =>
      rw [herror] at h
      cases h
      rw [readValues, Reader.readAll_of_error htokens herror]
      exact ⟨rfl, .inr rfl⟩
    | none =>
      have hlex := Reader.lexFrom_of_tokens htokens
      rw [herror] at hlex
      rw [readValues, Reader.readAll_of_tokens_eq_nil htokens herror]
      refine ⟨rfl, .inl ⟨?_, rfl⟩⟩
      rw [skipGap, Nat.zero_min, Nat.zero_add, List.drop_zero, lexFrom_eq_nil_iff.1 hlex,
        String.length_toList]

/-- An expression is read off the start of a source. What it leaves starts with no gap, and is read
to the values that follow the expression, and to the same error further on. The text of the
expression can be cut off and set before any other text. A source in which no expression can be read
fails at once, unless it holds nothing but blanks and comments. -/
theorem read_one_then_rest (source : String) :
    (∀ v after, readValue source = (.ok v, after) →
      (∃ taken, taken ≠ "" ∧ source = taken ++ after.rest) ∧
      (∀ c ∈ after.rest.toList.head?, Text.isBlank c = false ∧ c ≠ ';') ∧
      (readValues source).values = v :: (readValues after.rest).values ∧
      (readValues source).error = (readValues after.rest).error.map
        (ReadError.shift (source.length - after.rest.length)) ∧
      ∀ text : String,
        (readValue (String.ofList (source.toList.take after.position) ++ " " ++ text)).1 = .ok v ∧
        (readValue (String.ofList (source.toList.take after.position) ++ " " ++ text)).2.rest =
          String.ofList (text.toList.drop (skipGap text.toList 0))) ∧
    ∀ e after, readValue source = (.error e, after) →
      (readValues source).values = [] ∧
        (skipGap source.toList 0 = source.length ∧ (readValues source).error = none ∨
          (readValues source).error = some e) := by
  refine ⟨fun v after hread => ?_, fun e after hread => readValues_of_readValue_error hread⟩
  obtain ⟨ts, xs, hstarts, hplace, hsource, hposition⟩ := exists_startsWith hread
  obtain ⟨hvalues, herror⟩ := readValues_of_readValue_ok hread
  have hle : after.position ≤ after.source.length := by
    rw [hposition, hsource]
    exact hstarts.length_le
  have hlength := Reader.length_rest hle
  have hshift := hplace.shifted_rest hle
  obtain ⟨hvalues', herror'⟩ := hshift.readAll
  rw [hsource, String.length_toList] at hlength
  rw [hsource] at herror'
  refine ⟨⟨String.ofList (source.toList.take (skipGap source.toList after.position)), ?_, ?_⟩,
    gapLength_eq_zero_iff.1 (Reader.gapLength_rest hle), ?_, ?_, fun text => ?_⟩
  · -- What was taken holds the text of the expression at least.
    have hpos := hstarts.length_pos
    have hskip := skipGap_of_le hle
    rw [hsource] at hskip
    intro hnil
    have hzero := congrArg String.length hnil
    rw [String.length_ofList, List.length_take, String.length_toList, String.length_empty] at hzero
    omega
  · rw [← String.toList_inj, String.toList_append, String.toList_ofList, Reader.toList_rest,
      hsource, List.take_append_drop]
  · rw [hvalues, hvalues']
    rfl
  · rw [herror, herror', hlength, Nat.add_sub_cancel_left]
    rfl
  · rw [hposition, hstarts.take_length]
    exact hstarts.readValue_append text

end

/-- A sign before a digit starts a number, so the first source holds two numbers that nothing
separates, and then a parenthesis that nothing opened. The second holds nothing but a comment. -/
theorem read_one_then_rest_glued :
    ∃ v after ended e, readValue "1+2 ; both\n)" = (.ok v, after) ∧
      after.rest = "+2 ; both\n)" ∧
      (readValues "1+2 ; both\n)").values = v :: (readValues "+2 ; both\n)").values ∧
      (readValues "1+2 ; both\n)").error = some ⟨.unexpectedClose, 11⟩ ∧
      (readValue "1 ; end").1 = .ok v ∧
      readValue "  ; nothing" = (.error e, ended) ∧ (readValues "  ; nothing").values = [] := by
  obtain ⟨v, hv⟩ : ∃ v, (readValue "1+2 ; both\n)").1 = .ok v := by decide +kernel
  obtain ⟨e, he⟩ : ∃ e, (readValue "  ; nothing").1 = .error e := by decide +kernel
  have hrest : (readValue "1+2 ; both\n)").2.rest = "+2 ; both\n)" := by decide +kernel
  have htext : String.ofList ("1+2 ; both\n)".toList.take (readValue "1+2 ; both\n)").2.position) ++
      " " ++ "; end" = "1 ; end" := by decide +kernel
  obtain ⟨-, -, hvalues, herror, hlocal⟩ :=
    (read_one_then_rest "1+2 ; both\n)").1 v _ (Prod.ext hv rfl)
  refine ⟨v, _, _, e, Prod.ext hv rfl, hrest, ?_, ?_, ?_, Prod.ext he rfl, ?_⟩
  · rw [hvalues, hrest]
  · rw [herror, hrest]
    decide +kernel
  · rw [← htext]
    exact (hlocal "; end").1
  · exact ((read_one_then_rest "  ; nothing").2 e _ (Prod.ext he rfl)).1

end MiniLisp
