import MiniLisp.Reader

/-!
# The grammar of expressions

An expression is an atom, a quote before an expression, or a row of expressions in parentheses.
`Expression ts v` says that the tokens `ts` are one expression and that it stands for `v`;
`Expressions ts vs` says this of a row. Both are read off the tokens alone, without a reader.

The reader and the grammar agree. Whatever is pending, the tokens of an expression bring the reader
to where its value is delivered (`Expression.readFrom_append`), and a value that the reader gives
comes with a derivation over the tokens it took (`read_sound`). For a whole source this is
`Expressions.readAll` and `readAll_sound`.
-/

namespace MiniLisp

/-- Whether a token of this class is an expression by itself. -/
def TokenClass.isAtom : TokenClass → Bool
  | .quote | .openParen | .closeParen => false
  | .text | .number | .operator | .identifier => true

namespace Reader

/-- The reader after the tokens `ts`, with the tokens `rest` ahead. -/
def past (r : Reader) : List Token → List Token → Reader
  | [], _ => r
  | t :: ts, rest => (r.after t (ts ++ rest)).past ts rest

@[simp]
theorem source_past (r : Reader) (ts rest : List Token) : (r.past ts rest).source = r.source := by
  induction ts generalizing r with
  | nil => rfl
  | cons t ts ih => rw [past, ih]; rfl

@[simp]
theorem error_past (r : Reader) (ts rest : List Token) : (r.past ts rest).error = r.error := by
  induction ts generalizing r with
  | nil => rfl
  | cons t ts ih => rw [past, ih]; rfl

theorem tokens_past (r : Reader) {ts rest : List Token} (h : r.tokens = ts ++ rest) :
    (r.past ts rest).tokens = rest := by
  induction ts generalizing r with
  | nil => exact h
  | cons t ts ih => exact ih (r.after t (ts ++ rest)) rfl

theorem past_append (r : Reader) (ts us rest : List Token) :
    r.past (ts ++ us) rest = (r.past ts (us ++ rest)).past us rest := by
  induction ts generalizing r with
  | nil => rfl
  | cons t ts ih => rw [List.cons_append, past, past, ih, List.append_assoc]

end Reader

variable [Host]

mutual

/-- The tokens of one expression, with its value. -/
inductive Expression : List Token → Value → Prop
  | atom {t : Token} {v : Value} (hcls : t.cls.isAtom) (hv : t.atom = .ok v) : Expression [t] v
  | quoted {q : Token} {ts : List Token} {v : Value} (hq : q.cls = .quote)
      (h : Expression ts v) : Expression (q :: ts) (.quoted v)
  | list {o c : Token} {ts : List Token} {vs : List Value} (ho : o.cls = .openParen)
      (hc : c.cls = .closeParen) (h : Expressions ts vs) :
      Expression (o :: ts ++ [c]) (.sequence vs)

/-- The tokens of a row of expressions, with their values in order. -/
inductive Expressions : List Token → List Value → Prop
  | nil : Expressions [] []
  | cons {ts us : List Token} {v : Value} {vs : List Value} (h : Expression ts v)
      (hs : Expressions us vs) : Expressions (ts ++ us) (v :: vs)

end

theorem Expression.ne_nil {ts : List Token} {v : Value} (h : Expression ts v) : ts ≠ [] := by
  cases h <;> simp

theorem Expression.single {ts : List Token} {v : Value} (h : Expression ts v) :
    Expressions ts [v] := by
  rw [← List.append_nil ts]
  exact .cons h .nil

theorem Expressions.append : ∀ {ts us : List Token} {vs ws : List Value}, Expressions ts vs →
    Expressions us ws → Expressions (ts ++ us) (vs ++ ws)
  | _, _, _, _, .nil, h => h
  | _, _, _, _, .cons h hs, h' => by
    rw [List.append_assoc]
    exact .cons h (hs.append h')

/-! ## What one token does -/

namespace Token

variable {t : Token} {pending : List Pending}

theorem feed_quote (h : t.cls = .quote) : t.feed pending = .ok (.waiting (.quote :: pending)) := by
  simp only [feed, h]

theorem feed_openParen (h : t.cls = .openParen) :
    t.feed pending = .ok (.waiting (.list t.start [] :: pending)) := by
  simp only [feed, h]

theorem feed_closeParen_list (h : t.cls = .closeParen) (start : Nat) (items : List Value)
    (outer : List Pending) : t.feed (.list start items :: outer) =
      .ok (Pending.deliver (.sequence items.reverse) outer) := by
  simp only [feed, h]

-- A closing parenthesis that no list waits for is refused.
theorem feed_closeParen_error (h : t.cls = .closeParen)
    (hp : ¬ ∃ start items outer, pending = .list start items :: outer) :
    t.feed pending = .error ⟨.unexpectedClose, t.start⟩ := by
  unfold feed
  rw [h]
  rcases pending with _ | ⟨_ | ⟨start, items⟩, outer⟩
  · rfl
  · rfl
  · exact absurd ⟨start, items, outer, rfl⟩ hp

theorem feed_atom (h : t.cls.isAtom) (pending : List Pending) :
    t.feed pending = t.atom.map fun v => Pending.deliver v pending := by
  unfold feed
  cases hc : t.cls <;> simp_all [TokenClass.isAtom]

/-- All that a token can do to what waits: begin an expression, be one, close a list, or be a
parenthesis that no list waits for. -/
theorem feed_cases (t : Token) (pending : List Pending) :
    (t.cls = .quote ∧ t.feed pending = .ok (.waiting (.quote :: pending))) ∨
      (t.cls = .openParen ∧ t.feed pending = .ok (.waiting (.list t.start [] :: pending))) ∨
      (t.cls.isAtom ∧ t.feed pending = t.atom.map fun v => Pending.deliver v pending) ∨
      (t.cls = .closeParen ∧ ∃ start items outer, pending = .list start items :: outer ∧
        t.feed pending = .ok (Pending.deliver (.sequence items.reverse) outer)) ∨
      (t.cls = .closeParen ∧ (¬ ∃ start items outer, pending = .list start items :: outer) ∧
        t.feed pending = .error ⟨.unexpectedClose, t.start⟩) := by
  cases hc : t.cls with
  | quote => exact .inl ⟨rfl, feed_quote hc⟩
  | openParen => exact .inr (.inl ⟨rfl, feed_openParen hc⟩)
  | closeParen =>
    by_cases hp : ∃ start items outer, pending = .list start items :: outer
    · obtain ⟨start, items, outer, rfl⟩ := hp
      have hfeed := feed_closeParen_list hc start items outer
      exact .inr (.inr (.inr (.inl ⟨rfl, start, items, outer, rfl, hfeed⟩)))
    · exact .inr (.inr (.inr (.inr ⟨rfl, hp, feed_closeParen_error hc hp⟩)))
  | _ => exact .inr (.inr (.inl ⟨rfl, feed_atom (by rw [hc]; rfl) pending⟩))

theorem feed_ok_cases {progress : Progress} (h : t.feed pending = .ok progress) :
    (t.cls = .quote ∧ progress = .waiting (.quote :: pending)) ∨
      (t.cls = .openParen ∧ progress = .waiting (.list t.start [] :: pending)) ∨
      (t.cls.isAtom ∧ ∃ v, t.atom = .ok v ∧ progress = Pending.deliver v pending) ∨
      (t.cls = .closeParen ∧ ∃ start items outer, pending = .list start items :: outer ∧
        progress = Pending.deliver (.sequence items.reverse) outer) := by
  obtain ⟨hc, hf⟩ | ⟨hc, hf⟩ | ⟨ha, hf⟩ | ⟨hc, start, items, outer, hp, hf⟩ | ⟨hc, hp, hf⟩ :=
    feed_cases t pending <;> rw [hf] at h
  · cases h
    exact .inl ⟨hc, rfl⟩
  · cases h
    exact .inr (.inl ⟨hc, rfl⟩)
  · obtain ⟨v, hv, rfl⟩ := map_eq_ok_iff.1 h
    exact .inr (.inr (.inl ⟨ha, v, hv, rfl⟩))
  · cases h
    exact .inr (.inr (.inr ⟨hc, start, items, outer, hp, rfl⟩))
  · cases h

theorem number_eq_ok_iff {v : Value} : t.number = .ok v ↔
    Host.exceeded? (Text.digitCount t.chars) = none ∧
      Number.InRange (Text.intOfDigits t.chars) ∧ v = .number (Text.intOfDigits t.chars) := by
  unfold number
  split
  · rename_i hlimit
    simp [hlimit]
  · rename_i hlimit
    by_cases hrange : Number.InRange (Text.intOfDigits t.chars)
    · simp [hlimit, hrange, eq_comm]
    · simp [hlimit, hrange]

-- A numeral is refused for its digits, if they are too many, or else for its value.
theorem number_eq_error_iff {e : ReadError} : t.number = .error e ↔
    (∃ limit, Host.exceeded? (Text.digitCount t.chars) = some limit ∧
        e = ⟨.tooManyDigits (Text.digitCount t.chars) limit, t.start⟩) ∨
      (Host.exceeded? (Text.digitCount t.chars) = none ∧
        ¬ Number.InRange (Text.intOfDigits t.chars) ∧ e = ⟨.numberOutOfRange, t.start⟩) := by
  unfold number
  split
  · rename_i hlimit
    simp [hlimit, eq_comm]
  · rename_i hlimit
    by_cases hrange : Number.InRange (Text.intOfDigits t.chars)
    · simp [hlimit, hrange]
    · simp [hlimit, hrange, eq_comm]

theorem position_eq_start_of_number {e : ReadError} (h : t.number = .error e) :
    e.position = t.start := by
  obtain ⟨limit, -, rfl⟩ | ⟨-, -, rfl⟩ := number_eq_error_iff.1 h
  · rfl
  · rfl

-- What a token is the value of: a number, a text, a boolean, or else a symbol.
theorem atom_ok_cases {v : Value} (h : t.atom = .ok v) :
    (t.cls = .number ∧ ∃ n, Number.InRange n ∧ v = .number n) ∨
      (t.cls = .text ∧ ∃ s, v = .text s) ∨
      ((t.cls ≠ .number ∧ t.cls ≠ .text) ∧
        ((t.chars = "true".toList ∧ v = .boolean true) ∨
          (t.chars = "false".toList ∧ v = .boolean false) ∨
          ((t.chars ≠ "true".toList ∧ t.chars ≠ "false".toList) ∧
            v = .symbol (Name.ofChars t.chars t.chars_ne_nil)))) := by
  unfold atom at h
  split at h
  · obtain ⟨-, hrange, rfl⟩ := number_eq_ok_iff.1 h
    exact .inl ⟨‹_›, _, hrange, rfl⟩
  · obtain ⟨cs, -, rfl⟩ := map_eq_ok_iff.1 h
    exact .inr (.inl ⟨‹_›, _, rfl⟩)
  · refine .inr (.inr ⟨⟨‹_›, ‹_›⟩, ?_⟩)
    split at h
    · cases h
      exact .inl ⟨‹_›, rfl⟩
    split at h
    · cases h
      exact .inr (.inl ⟨‹_›, rfl⟩)
    · cases h
      exact .inr (.inr ⟨⟨‹_›, ‹_›⟩, rfl⟩)

-- A token has no value because it is a numeral that is refused, or a text with a bad escape.
theorem atom_error_cases {e : ReadError} (h : t.atom = .error e) :
    (t.cls = .number ∧ t.number = .error e) ∨
      (t.cls = .text ∧ Text.decode (t.start + 1) (t.chars.drop 1).dropLast = .error e) := by
  unfold atom at h
  split at h
  · exact .inl ⟨‹_›, h⟩
  · exact .inr ⟨‹_›, map_eq_error_iff.1 h⟩
  · split at h
    · cases h
    · split at h <;> cases h

-- A token is refused because it has no value, or because it closes what is not a list.
theorem feed_error_cases {e : ReadError} (h : t.feed pending = .error e) :
    (t.cls.isAtom ∧ t.atom = .error e) ∨
      (t.cls = .closeParen ∧ (¬ ∃ start items outer, pending = .list start items :: outer) ∧
        e = ⟨.unexpectedClose, t.start⟩) := by
  obtain ⟨hc, hf⟩ | ⟨hc, hf⟩ | ⟨ha, hf⟩ | ⟨hc, start, items, outer, hp, hf⟩ | ⟨hc, hp, hf⟩ :=
    feed_cases t pending <;> rw [hf] at h
  · cases h
  · cases h
  · exact .inl ⟨ha, map_eq_error_iff.1 h⟩
  · cases h
  · cases h
    exact .inr ⟨hc, hp, rfl⟩

end Token

namespace Reader

/-- The reader that has made some progress, with the tokens `rest` ahead: it is done, or it reads
on. -/
def resume (r : Reader) (rest : List Token) : Progress → Except ReadError Value × Reader
  | .complete v => (.ok v, r)
  | .waiting pending => r.readFrom pending rest

theorem readFrom_cons_ok (r : Reader) {pending : List Pending} {t : Token} {progress : Progress}
    (h : t.feed pending = .ok progress) (rest : List Token) :
    r.readFrom pending (t :: rest) = (r.after t rest).resume rest progress := by
  rw [readFrom, h]
  cases progress <;> rfl

theorem readFrom_cons_error (r : Reader) {pending : List Pending} {t : Token} {e : ReadError}
    (h : t.feed pending = .error e) (rest : List Token) :
    r.readFrom pending (t :: rest) = (.error e, r.after t rest) := by
  rw [readFrom, h]

end Reader

/-! ## Every derivation is read -/

mutual

/-- Whatever waits, reading the tokens of an expression delivers its value. -/
theorem Expression.readFrom_append {ts : List Token} {v : Value} (h : Expression ts v)
    (r : Reader) (pending : List Pending) (rest : List Token) :
    r.readFrom pending (ts ++ rest) =
      (r.past ts rest).resume rest (Pending.deliver v pending) := by
  match h with
  | .atom hcls hv =>
    have hfeed := Token.feed_atom hcls pending
    rw [hv] at hfeed
    exact r.readFrom_cons_ok hfeed rest
  | .quoted hq h =>
    rw [List.cons_append, r.readFrom_cons_ok (Token.feed_quote hq)]
    exact h.readFrom_append _ _ rest
  | .list ho hc h =>
    -- The list waits around its items until its parenthesis closes, and is delivered then.
    rw [List.cons_append, List.cons_append, List.append_assoc, List.singleton_append,
      r.readFrom_cons_ok (Token.feed_openParen ho), Reader.resume, h.readFrom_append,
      Reader.readFrom_cons_ok _ (Token.feed_closeParen_list hc _ _ _), Reader.past,
      Reader.past_append, List.append_nil, List.reverse_reverse, List.append_assoc]
    rfl

-- Reading a row of expressions inside a list adds their values to its items.
theorem Expressions.readFrom_append {ts : List Token} {vs : List Value} (h : Expressions ts vs)
    (r : Reader) (start : Nat) (items : List Value) (outer : List Pending) (rest : List Token) :
    r.readFrom (.list start items :: outer) (ts ++ rest) =
      (r.past ts rest).readFrom (.list start (vs.reverse ++ items) :: outer) rest := by
  match h with
  | .nil => rfl
  | .cons h hs =>
    rw [List.append_assoc, h.readFrom_append, Pending.deliver, Reader.resume, hs.readFrom_append,
      Reader.past_append, List.reverse_cons, List.append_assoc]
    rfl

end

theorem Expression.read {ts : List Token} {v : Value} (h : Expression ts v) (r : Reader)
    {rest : List Token} (hr : r.tokens = ts ++ rest) : r.read = (.ok v, r.past ts rest) := by
  rw [Reader.read, hr, h.readFrom_append]
  rfl

namespace Reader

variable {r after : Reader} {v : Value}

theorem readAll_of_read_ok (hne : r.tokens ≠ []) (h : r.read = (.ok v, after)) :
    r.readAll = ⟨v :: after.readAll.values, after.readAll.error, after.readAll.reader⟩ := by
  rw [readAll]
  split
  · exact absurd ‹_› hne
  · exact absurd ‹_› hne
  · split
    · simp_all
    · simp_all

theorem readAll_of_read_error (hne : r.tokens ≠ []) {e : ReadError}
    (h : r.read = (.error e, after)) : r.readAll = ⟨[], some e, after⟩ := by
  rw [readAll]
  split
  · exact absurd ‹_› hne
  · exact absurd ‹_› hne
  · split
    · simp_all
    · simp_all

theorem readAll_of_tokens_eq_nil (ht : r.tokens = []) (he : r.error = none) :
    r.readAll = ⟨[], none, r⟩ := by
  rw [readAll]
  split <;> simp_all

-- Where only an error is ahead, it is reported.
theorem readAll_of_error (ht : r.tokens = []) {e : ReadError} (he : r.error = some e) :
    r.readAll = ⟨[], some e, r.finished⟩ := by
  rw [readAll]
  split <;> simp_all

end Reader

/-- A reader with a row of expressions ahead reads their values, and then all that follows. -/
theorem Expressions.readAll_append : ∀ {ts : List Token} {vs : List Value}, Expressions ts vs →
    ∀ (r : Reader) (rest : List Token), r.tokens = ts ++ rest →
      r.readAll = ⟨vs ++ (r.past ts rest).readAll.values, (r.past ts rest).readAll.error,
        (r.past ts rest).readAll.reader⟩
  | _, _, .nil, _, _, _ => rfl
  | _, _, @Expressions.cons _ ts us _ _ h hs, r, rest, hr => by
    rw [List.append_assoc] at hr
    have hne : r.tokens ≠ [] := by simp [hr, h.ne_nil]
    have hrest := hs.readAll_append (r.past ts (us ++ rest)) rest (r.tokens_past hr)
    rw [Reader.readAll_of_read_ok hne (h.read r hr), hrest, Reader.past_append]
    rfl

/-- A reader with no more than a row of expressions ahead reads their values, and nothing is
amiss. -/
theorem Expressions.readAll {ts : List Token} {vs : List Value} (h : Expressions ts vs) (r : Reader)
    (hr : r.tokens = ts) (he : r.error = none) : r.readAll = ⟨vs, none, r.past ts []⟩ := by
  have htokens : r.tokens = ts ++ [] := by rw [hr, List.append_nil]
  have hend := Reader.readAll_of_tokens_eq_nil (r.tokens_past htokens)
    (by rw [r.error_past, he])
  rw [h.readAll_append r [] htokens, hend, List.append_nil]

/-! ## What a read keeps, token by token -/

namespace Reader

variable (Keeps : List Token → Progress → Prop)

/-- What every token keeps holds of the tokens that led to a value. -/
theorem readFrom_ok
    (hstep : ∀ us pending t progress, Keeps us (.waiting pending) →
      t.feed pending = .ok progress → Keeps (us ++ [t]) progress)
    {r after : Reader} {us ts : List Token} {pending : List Pending} {v : Value}
    (h : Keeps us (.waiting pending)) (hr : r.tokens = ts)
    (hread : r.readFrom pending ts = (.ok v, after)) :
    ∃ ts₁ ts₂, ts = ts₁ ++ ts₂ ∧ Keeps (us ++ ts₁) (.complete v) ∧ after = r.past ts₁ ts₂ := by
  -- On the tokens ahead, for any tokens `us` before them and anything that waits.
  induction ts generalizing r us pending with
  | nil =>
    rw [readFrom] at hread
    split at hread <;> cases hread
  | cons t rest ih =>
    cases hfeed : t.feed pending with
    | error e => rw [r.readFrom_cons_error hfeed] at hread; cases hread
    | ok progress =>
      rw [r.readFrom_cons_ok hfeed] at hread
      have hnext := hstep us pending t progress h hfeed
      cases progress with
      | complete w => cases hread; exact ⟨[t], rest, rfl, hnext, rfl⟩
      | waiting pending =>
        obtain ⟨ts₁, ts₂, rfl, hkeeps, rfl⟩ := ih hnext rfl hread
        refine ⟨t :: ts₁, ts₂, rfl, ?_, rfl⟩
        rwa [List.append_assoc] at hkeeps

/-- A read fails at the end of the tokens or at a token that is refused. What every token keeps
holds up to there. -/
theorem readFrom_error
    (hstep : ∀ us pending t progress, Keeps us (.waiting pending) →
      t.feed pending = .ok progress → Keeps (us ++ [t]) progress)
    {r after : Reader} {us ts : List Token} {pending : List Pending} {e : ReadError}
    (h : Keeps us (.waiting pending)) (hread : r.readFrom pending ts = (.error e, after)) :
    (∃ last, Keeps (us ++ ts) (.waiting last) ∧ e = r.error.getD (r.endError last)) ∨
      ∃ ts₁ t ts₂ last, ts = ts₁ ++ t :: ts₂ ∧ Keeps (us ++ ts₁) (.waiting last) ∧
        t.feed last = .error e := by
  induction ts generalizing r us pending with
  | nil =>
    refine .inl ⟨pending, by rwa [List.append_nil], ?_⟩
    rw [readFrom] at hread
    split at hread <;> cases hread <;> simp_all
  | cons t rest ih =>
    cases hfeed : t.feed pending with
    | error e' =>
      rw [r.readFrom_cons_error hfeed] at hread
      cases hread
      exact .inr ⟨[], t, rest, pending, rfl, by rwa [List.append_nil], hfeed⟩
    | ok progress =>
      rw [r.readFrom_cons_ok hfeed] at hread
      have hnext := hstep us pending t progress h hfeed
      cases progress with
      | complete w => cases hread
      | waiting pending =>
        obtain ⟨last, hkeeps, he⟩ | ⟨ts₁, t', ts₂, last, rfl, hkeeps, hlast⟩ := ih hnext hread
        · refine .inl ⟨last, ?_, he⟩
          rwa [List.append_assoc] at hkeeps
        · refine .inr ⟨t :: ts₁, t', ts₂, last, rfl, ?_, hlast⟩
          rwa [List.append_assoc] at hkeeps

end Reader

/-! ## Every value read has a derivation -/

/-- The tokens of the expressions that have begun and wait for a value, innermost last. -/
inductive Begun : List Token → List Pending → Prop
  | top : Begun [] []
  | quote {ts : List Token} {q : Token} {outer : List Pending} (h : Begun ts outer)
      (hq : q.cls = .quote) : Begun (ts ++ [q]) (.quote :: outer)
  | list {ts us : List Token} {o : Token} {items : List Value} {outer : List Pending}
      (h : Begun ts outer) (ho : o.cls = .openParen) (hs : Expressions us items.reverse) :
      Begun (ts ++ o :: us) (.list o.start items :: outer)

/-- What some tokens are when they have led to a progress. -/
def Progress.Derived (ts : List Token) : Progress → Prop
  | .complete v => Expression ts v
  | .waiting pending => Begun ts pending

namespace Begun

variable {ts : List Token} {pending : List Pending}

theorem deliver {us : List Token} {v : Value} (h : Begun ts pending) (hv : Expression us v) :
    (Pending.deliver v pending).Derived (ts ++ us) := by
  induction h generalizing us v with
  | top => exact hv
  | quote _ hq ih =>
    rw [Pending.deliver, List.append_assoc]
    exact ih (.quoted hq hv)
  | list h ho hs _ =>
    rw [Pending.deliver, List.append_assoc, List.cons_append]
    refine .list h ho ?_
    rw [List.reverse_cons]
    exact hs.append hv.single

-- One token more, and what has begun has gone on.
theorem feed (h : Begun ts pending) {t : Token} {progress : Progress}
    (hfeed : t.feed pending = .ok progress) : progress.Derived (ts ++ [t]) := by
  obtain ⟨hc, rfl⟩ | ⟨hc, rfl⟩ | ⟨ha, v, hv, rfl⟩ | ⟨hc, start, items, outer, rfl, rfl⟩ :=
    Token.feed_ok_cases hfeed
  · exact .quote h hc
  · exact .list h hc .nil
  · exact h.deliver (.atom ha hv)
  · cases h with
    | list h ho hs =>
      -- The items were collected newest first, so the list reverses them.
      rw [List.append_assoc]
      exact h.deliver (.list ho hc hs)

end Begun

/-- A value comes with a derivation over the tokens that reading it took. -/
theorem read_sound {r after : Reader} {v : Value} (h : r.read = (.ok v, after)) :
    ∃ ts rest, r.tokens = ts ++ rest ∧ Expression ts v ∧ after = r.past ts rest :=
  Reader.readFrom_ok (fun ts progress => progress.Derived ts)
    (fun _ _ _ _ hus hfeed => Begun.feed hus hfeed) Begun.top rfl h

/-- If reading to the end meets no error, then the tokens are the expressions it gave. -/
theorem readAll_sound (r : Reader) (h : r.readAll.error = none) :
    Expressions r.tokens r.readAll.values := by
  fun_induction Reader.readAll r with
  | case1 r e _ he => cases h
  | case2 r ht _ => rw [ht]; exact .nil
  | case3 r _ _ _ e after _ => cases h
  | case4 r _ _ _ v after hread others ih =>
    obtain ⟨ts, rest, hts, he, rfl⟩ := read_sound hread
    have hrest := ih h
    rw [r.tokens_past hts] at hrest
    rw [hts]
    exact .cons he hrest

-- A reader whose tokens an error ends reports that error at last.
theorem error_eq_none_of_readAll (r : Reader) (h : r.readAll.error = none) : r.error = none := by
  fun_induction Reader.readAll r with
  | case1 r e _ he => cases h
  | case2 r ht he => exact he
  | case3 r _ _ _ e after _ => cases h
  | case4 r _ _ _ v after hread others ih =>
    obtain ⟨ts, rest, -, -, rfl⟩ := read_sound hread
    rw [← ih h, r.error_past]

/-- A source that is read without an error is cut into the tokens of the expressions it gives. -/
theorem readValues_sound {source : String} (h : (readValues source).error = none) :
    ∃ ts, lex source.toList 0 = ⟨ts, none⟩ ∧ Expressions ts (readValues source).values := by
  refine ⟨(Reader.ofString source).tokens, ?_, readAll_sound _ h⟩
  rw [← error_eq_none_of_readAll _ h]
  rfl

end MiniLisp
