import MiniLisp.Proofs.Reader.Position

/-!
# A source cut off after an expression

Reading takes one expression after another off the start of a source. A source that is cut off
where one of them ends holds the expressions up to there, and nothing is amiss with it, whatever
came after them (`readValues_cutAfter`).
-/

namespace MiniLisp

/-- The reader after some more expressions. -/
def Reader.afterReading [Host] (r : Reader) : Nat → Reader
  | 0 => r
  | k + 1 => r.read.2.afterReading k

/-- The source up to the end of its expression number `k`, counted from 1; nothing of it if `k` is
zero. -/
def cutAfter [Host] (source : String) (k : Nat) : String :=
  String.ofList (source.toList.take ((Reader.ofString source).afterReading k).position)

/-- The first values that a reader gives come from a row of expressions at the start of what is
ahead, and the reader is left at its end. -/
theorem Reader.exists_expressions_take [Host] (r : Reader) {k : Nat}
    (hk : k ≤ r.readAll.values.length) :
    ∃ ts rest, r.tokens = ts ++ rest ∧ Expressions ts (r.readAll.values.take k) ∧
      r.afterReading k = r.past ts rest := by
  fun_induction Reader.readAll r generalizing k with
  | case1 r e ht he =>
    obtain rfl : k = 0 := Nat.le_zero.1 hk
    exact ⟨[], r.tokens, rfl, .nil, rfl⟩
  | case2 r ht he =>
    obtain rfl : k = 0 := Nat.le_zero.1 hk
    exact ⟨[], r.tokens, rfl, .nil, rfl⟩
  | case3 r t ts hts e after hread =>
    obtain rfl : k = 0 := Nat.le_zero.1 hk
    exact ⟨[], r.tokens, rfl, .nil, rfl⟩
  | case4 r t ts hts v after hread others =>
    rename_i ih
    cases k with
    | zero => exact ⟨[], r.tokens, rfl, .nil, rfl⟩
    | succ k =>
      obtain ⟨us, rest, hsplit, hexpression, hafter⟩ := read_sound hread
      obtain ⟨ws, rest', htokens, hexpressions, hreader⟩ := ih (Nat.le_of_succ_le_succ hk)
      -- The tokens of the first expression, then those of the others.
      have hrest : rest = ws ++ rest' := by
        rw [← htokens, hafter, r.tokens_past hsplit]
      rw [hrest] at hsplit hafter
      refine ⟨us ++ ws, rest', ?_, .cons hexpression hexpressions, ?_⟩
      · rw [hsplit, List.append_assoc]
      · rw [Reader.afterReading, hread, hreader, hafter, r.past_append]

/-- A source cut off after an expression is read to the values of the expressions up to there. -/
theorem readValues_cutAfter [Host] {source : String} {k : Nat}
    (hk : k ≤ (readValues source).values.length) :
    (readValues (cutAfter source k)).values = (readValues source).values.take k ∧
      (readValues (cutAfter source k)).error = none := by
  obtain ⟨ts, rest, htokens, hexpressions, hafter⟩ :=
    (Reader.ofString source).exists_expressions_take hk
  obtain ⟨xs, ys, hsource, hstop, -, htaken⟩ :=
    lexFrom_eq_append (Reader.lexFrom_of_tokens htokens)
  have hposition : ((Reader.ofString source).afterReading k).position = xs.length := by
    rw [hafter, Reader.position_past]
    show stopAfter 0 ts = xs.length
    rw [hstop, Nat.zero_add]
  have hcut : (cutAfter source k).toList = xs := by
    rw [cutAfter, String.toList_ofList, hposition, hsource, List.take_left]
  -- The end of the text lends nothing to the last token, so the tokens stay what they were.
  have hlexed : lexFrom 0 xs = ⟨ts, none⟩ := by
    have hend := htaken [] (delimited_nil.lendsNoMore ys)
    rwa [List.append_nil, prepend_lexFrom_nil] at hend
  have hreader : (Reader.ofString (cutAfter source k)).tokens = ts ∧
      (Reader.ofString (cutAfter source k)).error = none := by
    show (lexFrom 0 (cutAfter source k).toList).tokens = ts ∧
      (lexFrom 0 (cutAfter source k).toList).error = none
    rw [hcut, hlexed]
    exact ⟨rfl, rfl⟩
  rw [readValues, hexpressions.readAll _ hreader.1 hreader.2]
  exact ⟨rfl, rfl⟩

end MiniLisp
