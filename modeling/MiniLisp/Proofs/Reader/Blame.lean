import MiniLisp.Proofs.Reader.Grammar

/-!
# The blame for a source that is no row of expressions

When every token that needs a value has one, a source can fail to be a row of expressions in three
ways: a closing parenthesis is stray, the tokens end in a quote, or a parenthesis stays open.
`Blamed` says which of these is reported, and where, in terms of the tokens alone.

What carries the proof is `Scanned`: while nothing is stray, the pending expressions of a reader
mirror the parentheses that its tokens have left open, and a quote is innermost exactly when it was
the last token.
-/

namespace MiniLisp

/-- The parentheses open after a token, given those open before it. -/
def openAfter (opened : List Nat) (t : Token) : List Nat :=
  match t.cls with
  | .openParen => t.start :: opened
  | .closeParen => opened.tail
  | _ => opened

/-- Where the parentheses start that some tokens leave open, the most recent first. -/
def openParens (ts : List Token) : List Nat := ts.foldl openAfter []

def EndsInQuote (ts : List Token) : Prop := ∃ q, ts.getLast? = some q ∧ q.cls = .quote

/-- A closing parenthesis, after the tokens `before`, that has no open parenthesis to close or
directly follows a quote. -/
def IsStray (before : List Token) (c : Token) : Prop :=
  c.cls = .closeParen ∧ (openParens before = [] ∨ EndsInQuote before)

def Strayless (ts : List Token) : Prop :=
  ∀ before c after, ts = before ++ c :: after → ¬ IsStray before c

/-- The message and the position that the tokens of a source of the given length are blamed with:
the first stray parenthesis comes before a quote at the end, and that before open parentheses, of
which the most recent is blamed. -/
inductive Blamed (ts : List Token) (length : Nat) : String → Nat → Prop
  | stray {before after : List Token} {c : Token} (hts : ts = before ++ c :: after)
      (hbefore : Strayless before) (hc : IsStray before c) :
      Blamed ts length "Unexpected ')'" c.start
  | quote (hts : Strayless ts) (hq : EndsInQuote ts) :
      Blamed ts length "Unexpected end of input" length
  | openParen {start : Nat} {outer : List Nat} (hts : Strayless ts) (hq : ¬ EndsInQuote ts)
      (ho : openParens ts = start :: outer) : Blamed ts length "Unmatched '('" start

/-- A number token that the host converts to a number within the range, a text token whose escapes
are all known, or a token of another class. -/
def Token.HasValue [Host] (t : Token) : Prop :=
  (t.cls = .number → Host.exceeded? (Text.digitCount t.chars) = none ∧
      Number.InRange (Text.intOfDigits t.chars)) ∧
    (t.cls = .text → ∃ cs, Text.decode (t.start + 1) (t.chars.drop 1).dropLast = .ok cs)

instance [Host] (t : Token) : Decidable t.HasValue :=
  decidable_of_iff ((t.cls = .number → Host.exceeded? (Text.digitCount t.chars) = none ∧
        Number.InRange (Text.intOfDigits t.chars)) ∧
      (t.cls = .text → (Text.decode (t.start + 1) (t.chars.drop 1).dropLast).isOk)) <| by
    refine and_congr_right fun _ => imp_congr_right fun _ => ?_
    cases Text.decode (t.start + 1) (t.chars.drop 1).dropLast <;> simp [Except.isOk, Except.toBool]

theorem Token.HasValue.exists_atom [Host] {t : Token} (h : t.HasValue) : ∃ v, t.atom = .ok v := by
  unfold Token.atom
  split
  · rename_i hc
    obtain ⟨hhost, hrange⟩ := h.1 hc
    exact ⟨_, number_eq_ok_iff.2 ⟨hhost, hrange, rfl⟩⟩
  · rename_i hc
    obtain ⟨cs, hcs⟩ := h.2 hc
    rw [hcs]
    exact ⟨_, rfl⟩
  · split
    · exact ⟨_, rfl⟩
    · split <;> exact ⟨_, rfl⟩

/-! ## One token more -/

variable {ts : List Token} {t : Token}

theorem openParens_concat : openParens (ts ++ [t]) = openAfter (openParens ts) t := by
  rw [openParens, List.foldl_append]
  rfl

theorem endsInQuote_concat : EndsInQuote (ts ++ [t]) ↔ t.cls = .quote := by
  simp [EndsInQuote]

theorem Strayless.concat (h : Strayless ts) (ht : ¬ IsStray ts t) : Strayless (ts ++ [t]) := by
  intro before c after hsplit
  rcases after.eq_nil_or_concat with rfl | ⟨others, last, rfl⟩
  · obtain ⟨rfl, hc⟩ := List.append_inj' hsplit rfl
    cases hc
    exact ht
  · rw [List.concat_eq_append, ← List.cons_append, ← List.append_assoc] at hsplit
    obtain ⟨hts, -⟩ := List.append_inj' hsplit rfl
    exact h before c others hts

theorem strayless_nil : Strayless [] := by
  intro before c after h
  exact absurd h.symm (by simp)

/-! ## What is pending -/

def Pending.start? : Pending → Option Nat
  | .quote => none
  | .list start _ => some start

/-- What waits after a progress. -/
def Progress.pending : Progress → List Pending
  | .complete _ => []
  | .waiting pending => pending

theorem Pending.starts_deliver (v : Value) (pending : List Pending) :
    (deliver v pending).pending.filterMap start? = pending.filterMap start? := by
  induction pending generalizing v with
  | nil => rfl
  | cons p outer ih =>
    cases p with
    | quote => rw [deliver, ih]; rfl
    | list start items => rfl

theorem Pending.head?_deliver_ne_quote (v : Value) (pending : List Pending) :
    (deliver v pending).pending.head? ≠ some .quote := by
  induction pending generalizing v with
  | nil => simp [deliver, Progress.pending]
  | cons p outer ih =>
    cases p with
    | quote => exact ih (.quoted v)
    | list start items => simp [deliver, Progress.pending]

theorem Pending.deliver_ne_waiting_nil (v : Value) (pending : List Pending) :
    deliver v pending ≠ .waiting [] := by
  induction pending generalizing v with
  | nil => simp [deliver]
  | cons p outer ih =>
    cases p with
    | quote => exact ih (.quoted v)
    | list start items => simp [deliver]

/-- The pending expressions mirror the tokens read: the same parentheses are open, a quote waits
innermost when the last token was one, and no parenthesis was stray. -/
structure Scanned (ts : List Token) (pending : List Pending) : Prop where
  openParens_eq : openParens ts = pending.filterMap Pending.start?
  endsInQuote_iff : EndsInQuote ts ↔ pending.head? = some .quote
  strayless : Strayless ts

namespace Scanned

variable {pending : List Pending} {progress : Progress}

theorem nil : Scanned [] [] where
  openParens_eq := rfl
  endsInQuote_iff := by simp [EndsInQuote]
  strayless := strayless_nil

-- A closing parenthesis is stray where no list is innermost.
theorem isStray_iff (h : Scanned ts pending) (hc : t.cls = .closeParen) :
    IsStray ts t ↔ ¬ ∃ start items outer, pending = .list start items :: outer := by
  rw [IsStray, h.openParens_eq, h.endsInQuote_iff]
  rcases pending with _ | ⟨_ | ⟨start, items⟩, outer⟩ <;> simp [hc, Pending.start?]

-- A value is delivered after a token that is neither a quote nor an opening parenthesis.
theorem deliver (h : Scanned ts pending) (hs : ¬ IsStray ts t) (hq : t.cls ≠ .quote)
    {outer : List Pending} (v : Value)
    (ho : openAfter (openParens ts) t = outer.filterMap Pending.start?) :
    Scanned (ts ++ [t]) (Pending.deliver v outer).pending where
  openParens_eq := by rw [openParens_concat, ho, Pending.starts_deliver]
  endsInQuote_iff := by
    rw [endsInQuote_concat]
    exact iff_of_false hq (Pending.head?_deliver_ne_quote v outer)
  strayless := h.strayless.concat hs

theorem feed [Host] (h : Scanned ts pending) (hfeed : t.feed pending = .ok progress) :
    Scanned (ts ++ [t]) progress.pending := by
  obtain ⟨hc, rfl⟩ | ⟨hc, rfl⟩ | ⟨ha, v, hv, rfl⟩ | ⟨hc, start, items, outer, rfl, rfl⟩ :=
    Token.feed_ok_cases hfeed
  -- A quote or an opening parenthesis waits innermost; an atom or a list is delivered.
  · refine ⟨?_, ?_, h.strayless.concat fun hs => ?_⟩
    · rw [openParens_concat, openAfter, hc, h.openParens_eq]
      rfl
    · simp [endsInQuote_concat, hc, Progress.pending]
    · exact absurd (hs.1.symm.trans hc) (by decide)
  · refine ⟨?_, ?_, h.strayless.concat fun hs => ?_⟩
    · rw [openParens_concat, openAfter, hc, h.openParens_eq]
      rfl
    · simp [endsInQuote_concat, hc, Progress.pending]
    · exact absurd (hs.1.symm.trans hc) (by decide)
  · have hcls : t.cls ≠ .quote ∧ t.cls ≠ .openParen ∧ t.cls ≠ .closeParen := by
      cases hc : t.cls <;> simp_all [TokenClass.isAtom]
    refine h.deliver (fun hs => hcls.2.2 hs.1) hcls.1 v ?_
    rw [← h.openParens_eq, openAfter]
    split
    · exact absurd ‹_› hcls.2.1
    · exact absurd ‹_› hcls.2.2
    · rfl
  · refine h.deliver ?_ (by rw [hc]; decide) _ ?_
    · rw [h.isStray_iff hc, Classical.not_not]
      exact ⟨start, items, outer, rfl⟩
    · rw [openAfter, hc, h.openParens_eq]
      rfl

-- A token that has a value is refused only as a stray parenthesis.
theorem isStray_of_feed_error [Host] (h : Scanned ts pending) (hv : t.HasValue)
    {e : ReadError} (hfeed : t.feed pending = .error e) :
    IsStray ts t ∧ e = ⟨.unexpectedClose, t.start⟩ := by
  obtain ⟨-, he⟩ | ⟨hc, hp, rfl⟩ := Token.feed_error_cases hfeed
  · obtain ⟨v, hv⟩ := hv.exists_atom
    rw [hv] at he
    cases he
  · exact ⟨(h.isStray_iff hc).2 hp, rfl⟩

-- Tokens that end while something waits are blamed as the reader says.
theorem blamed_end (h : Scanned ts pending) (hp : pending ≠ []) (r : Reader) :
    Blamed ts r.source.length (r.endError pending).fault.message (r.endError pending).position := by
  rcases pending with _ | ⟨_ | ⟨start, items⟩, outer⟩
  · exact absurd rfl hp
  · exact .quote h.strayless (h.endsInQuote_iff.2 rfl)
  · refine .openParen h.strayless ?_ h.openParens_eq
    rw [h.endsInQuote_iff]
    simp

end Scanned

/-! ## The blame is one -/

namespace Blamed

variable {length position position' : Nat} {message message' : String}

theorem not_scanned (h : Blamed ts length message position) : ¬ Scanned ts [] := by
  intro hs
  cases h with
  | stray hts _ hc => exact hs.strayless _ _ _ hts hc
  | quote _ hq => exact absurd (hs.endsInQuote_iff.1 hq) (by simp)
  | openParen _ _ ho => rw [hs.openParens_eq] at ho; cases ho

-- Only one parenthesis is the first stray one.
theorem stray_unique {before after before' after' : List Token} {c c' : Token}
    (hts : before ++ c :: after = before' ++ c' :: after') (hb : Strayless before)
    (hb' : Strayless before') (hc : IsStray before c) (hc' : IsStray before' c') : c = c' := by
  obtain ⟨as, rfl, has⟩ | ⟨as, rfl, has⟩ := List.append_eq_append_iff.1 hts
  · cases as with
    | nil => cases has; rfl
    | cons a as => cases has; exact absurd hc (hb' before c as rfl)
  · cases as with
    | nil => cases has; rfl
    | cons a as => cases has; exact absurd hc' (hb before' c' as rfl)

-- The blame falls on one place.
theorem unique (h : Blamed ts length message position)
    (h' : Blamed ts length message' position') : message = message' ∧ position = position' := by
  cases h with
  | stray hts hb hc =>
    cases h' with
    | stray hts' hb' hc' =>
      rw [stray_unique (hts.symm.trans hts') hb hb' hc hc']
      exact ⟨rfl, rfl⟩
    | quote hs => exact absurd hc (hs _ _ _ hts)
    | openParen hs => exact absurd hc (hs _ _ _ hts)
  | quote hs hq =>
    cases h' with
    | stray hts' _ hc' => exact absurd hc' (hs _ _ _ hts')
    | quote => exact ⟨rfl, rfl⟩
    | openParen _ hq' => exact absurd hq hq'
  | openParen hs hq ho =>
    cases h' with
    | stray hts' _ hc' => exact absurd hc' (hs _ _ _ hts')
    | quote _ hq' => exact absurd hq' hq
    | openParen _ _ ho' => rw [ho] at ho'; cases ho'; exact ⟨rfl, rfl⟩

end Blamed

/-! ## A whole source -/

/-- What the tokens of a read keep, after the tokens `done` of earlier expressions. -/
def ScannedAfter (done ts : List Token) (progress : Progress) : Prop :=
  Scanned (done ++ ts) progress.pending ∧ (progress = .waiting [] → ts = [])

theorem ScannedAfter.start {done : List Token} (h : Scanned done []) :
    ScannedAfter done [] (.waiting []) := by
  rw [ScannedAfter, List.append_nil]
  exact ⟨h, fun _ => rfl⟩

section

variable [Host]

-- A token never leaves a reader with nothing that waits, unless a value is complete.
theorem Token.feed_ne_waiting_nil {pending : List Pending} :
    t.feed pending ≠ .ok (.waiting []) := by
  intro h
  obtain ⟨-, hp⟩ | ⟨-, hp⟩ | ⟨-, v, -, hp⟩ | ⟨-, start, items, outer, -, hp⟩ := feed_ok_cases h
  · cases hp
  · cases hp
  · exact Pending.deliver_ne_waiting_nil v pending hp.symm
  · exact Pending.deliver_ne_waiting_nil _ outer hp.symm

theorem ScannedAfter.feed {done : List Token} {pending : List Pending} {progress : Progress}
    (h : ScannedAfter done ts (.waiting pending)) (hfeed : t.feed pending = .ok progress) :
    ScannedAfter done (ts ++ [t]) progress := by
  refine ⟨?_, fun hp => absurd (hp ▸ hfeed) Token.feed_ne_waiting_nil⟩
  rw [← List.append_assoc]
  exact h.1.feed hfeed

-- A reader that meets no error has scanned all its tokens.
theorem readAll_scanned {r : Reader} (he : r.readAll.error = none) :
    ∀ {done : List Token}, Scanned done [] → Scanned (done ++ r.tokens) [] := by
  fun_induction Reader.readAll r with
  | case1 => cases he
  | case2 r hr =>
    intro done hdone
    rwa [hr, List.append_nil]
  | case3 => cases he
  | case4 r t ts hts v after hread others ih =>
    intro done hdone
    obtain ⟨ts₁, ts₂, hsplit, hscan, rfl⟩ :=
      Reader.readFrom_ok (ScannedAfter done) (fun _ _ _ _ h => h.feed) (.start hdone) rfl hread
    -- Nothing waits after the value, so what was read for it joins what is done.
    have hrest := ih he hscan.1
    rwa [r.tokens_past hsplit, List.nil_append, List.append_assoc, ← hsplit] at hrest

/-- A reader that fails among tokens with values blames them, and those read before, as `Blamed`
says. -/
theorem readAll_blamed {r : Reader} (hr : r.error = none) (hv : ∀ t ∈ r.tokens, t.HasValue)
    {e : ReadError} (he : r.readAll.error = some e) :
    ∀ {done : List Token}, Scanned done [] →
      Blamed (done ++ r.tokens) r.source.length e.fault.message e.position := by
  fun_induction Reader.readAll r with
  | case1 r e' _ hr' => rw [hr] at hr'; cases hr'
  | case2 => cases he
  | case3 r t ts hts e' after hread =>
    intro done hdone
    cases he
    obtain ⟨last, hlast, hend⟩ | ⟨ts₁, t', ts₂, last, hsplit, hlast, hfeed⟩ :=
      Reader.readFrom_error (ScannedAfter done) (fun _ _ _ _ h => h.feed) (.start hdone) hread
    · rw [hr] at hend
      cases hend
      refine hlast.1.blamed_end (fun hp => ?_) r
      -- Nothing waits only before the first token, and there was one.
      have hnil := hlast.2 (congrArg _ hp)
      simp [hts] at hnil
    · have ht : t'.HasValue := hv t' (by rw [hsplit]; simp)
      obtain ⟨hs, rfl⟩ := hlast.1.isStray_of_feed_error ht hfeed
      rw [hsplit, ← List.append_assoc]
      exact .stray rfl hlast.1.strayless hs
  | case4 r t ts hts v after hread others ih =>
    intro done hdone
    obtain ⟨ts₁, ts₂, hsplit, hscan, rfl⟩ :=
      Reader.readFrom_ok (ScannedAfter done) (fun _ _ _ _ h => h.feed) (.start hdone) rfl hread
    have htokens := r.tokens_past hsplit
    have hblamed := ih (by rw [r.error_past, hr])
      (fun t ht => hv t (by rw [hsplit]; rw [htokens] at ht; simp [ht])) he hscan.1
    rwa [htokens, List.nil_append, List.append_assoc, ← hsplit, r.source_past] at hblamed

end

end MiniLisp
