import MiniLisp.Proofs.Reader.Position

/-!
# Operations on a reader

A reader can be asked for its next token or value, for all its values, or for the text it leaves, in
any order. Whatever an operation is, it does one of two things (`Reader.Moves`): it takes tokens
that are ahead, and fails at one of them or not at all; or it takes all of them and reports what
ended them. So a reader stays in its place until that is reported, also through operations that fail
half way, and is at its end from then on (`Reader.Reached`). Nothing else of its past can be
observed (`Reader.determined_by_position`).
-/

namespace MiniLisp

namespace Reader

/-- What a reader can be asked for. -/
inductive Operation where
  | next
  | take
  | read
  | readAll
  | rest

inductive Answer where
  | next (result : Except ReadError (Option Token))
  | take (result : Except ReadError Token)
  | read (result : Except ReadError Value)
  | readAll (values : List Value) (error : Option ReadError)
  | rest (text : String)

section

variable [Host]

def perform (r : Reader) : Operation → Answer × Reader
  | .next => (.next r.next.1, r.next.2)
  | .take => (.take r.take.1, r.take.2)
  | .read => (.read r.read.1, r.read.2)
  | .readAll => (.readAll r.readAll.values r.readAll.error, r.readAll.reader)
  | .rest => (.rest r.rest, r)

/-- The reader after some operations, whatever their answers. -/
def afterEach (r : Reader) (ops : List Operation) : Reader :=
  ops.foldl (fun r op => (r.perform op).2) r

/-- The answers to some operations in order, each with the position after it. -/
def answers (r : Reader) : List Operation → List (Answer × Nat)
  | [] => []
  | op :: ops =>
    ((r.perform op).1, (r.perform op).2.position) :: (r.perform op).2.answers ops

end

/-- The error that a result is, if it is one. -/
def failure? {α : Type} : Except ReadError α → Option ReadError
  | .ok _ => none
  | .error e => some e

/-- The error that an answer reports. -/
def Answer.error? : Answer → Option ReadError
  | .next result => failure? result
  | .take result => failure? result
  | .read result => failure? result
  | .readAll _ error => error
  | .rest _ => none

/-- The lexer of a reader that started at `start` has raised an error: one ended the tokens, and it
is not ahead any more. -/
def Raised (start : Nat) (r : Reader) : Prop := (lex r.source start).error.isSome ∧ r.error = none

instance (start : Nat) (r : Reader) : Decidable (r.Raised start) :=
  inferInstanceAs (Decidable (_ ∧ _))

/-- What is answered at the end of a source of which nothing is ahead. -/
def Operation.answerAtEnd (source : List Char) (position : Nat) : Operation → Answer
  | .next => .next (.ok none)
  | .take => .take (.error ⟨.unexpectedEnd, source.length⟩)
  | .read => .read (.error ⟨.unexpectedEnd, source.length⟩)
  | .readAll => .readAll [] none
  | .rest => .rest (String.ofList (source.drop (skipGap source position)))

/-! ## Where a reader is -/

/-- A reader that started at `start` is in its place, or its lexer has raised and nothing is
ahead. -/
inductive Reached (start : Nat) (r : Reader) : Prop
  | inPlace (h : r.InPlace) (he : r.error = (lex r.source start).error)
  | raised (h : r.Raised start) (ht : r.tokens = [])

theorem reached_ofSource (source : List Char) (start : Nat) :
    (ofSource source start).Reached start := .inPlace (inPlace_ofSource source start) rfl

theorem Reached.tokens_of_raised {r : Reader} {start : Nat} (h : r.Reached start)
    (hr : r.Raised start) : r.tokens = [] := by
  cases h with
  | inPlace _ he =>
    have hsome := hr.1
    rw [← he, hr.2] at hsome
    cases hsome
  | raised _ ht => exact ht

theorem Reached.inPlace_of_not_raised {r : Reader} {start : Nat} (h : r.Reached start)
    (hr : ¬ r.Raised start) : r.InPlace := by
  cases h with
  | inPlace hplace _ => exact hplace
  | raised h _ => exact absurd h hr

-- Looking at the next token changes nothing, unless the lexer raises an error there.
theorem next_of_ok {r : Reader} {t : Option Token} (h : r.next.1 = .ok t) :
    r.next = (.ok t, r) := by
  unfold next at h ⊢
  split at h <;> cases h <;> rfl

/-! ## What an operation does -/

/-- All that an operation does to a reader, with the error that it answers with, if any: it takes
tokens that are ahead, and fails at one of them or where nothing more is ahead; or it takes all
tokens and reports what ended them. -/
inductive Moves [Host] (r : Reader) : Option ReadError → Reader → Prop
  | taken (ts rest : List Token) {failure : Option ReadError} (ht : r.tokens = ts ++ rest)
      (hf : ∀ e ∈ failure, r.error = none ∨ ∃ t ∈ ts, ∃ pending, t.feed pending = .error e) :
      Moves r failure (r.past ts rest)
  | raised {e : ReadError} (he : r.error = some e) :
      Moves r (some e) (r.past r.tokens []).finished

namespace Moves

variable [Host] {r after : Reader} {failure : Option ReadError}

theorem refl (r : Reader) : Moves r none r := .taken [] r.tokens rfl nofun

theorem of_tokens_eq_nil (ht : r.tokens = []) {e : ReadError} (he : r.error = some e) :
    Moves r (some e) r.finished := by
  have hraised := Moves.raised he
  rwa [ht] at hraised

-- What is done after taking some tokens is done by taking them first.
theorem of_past {ts rest : List Token} (ht : r.tokens = ts ++ rest)
    (h : Moves (r.past ts rest) failure after) : Moves r failure after := by
  have htokens := r.tokens_past ht
  cases h with
  | taken us rest' ht' hf =>
    rw [htokens] at ht'
    subst ht'
    rw [← past_append]
    rw [error_past] at hf
    refine .taken _ _ (by rw [ht, List.append_assoc]) fun e he => (hf e he).imp_right ?_
    rintro ⟨t, htmem, hfeed⟩
    exact ⟨t, List.mem_append_right ts htmem, hfeed⟩
  | raised he =>
    have hsplit := r.past_append ts rest []
    rw [List.append_nil] at hsplit
    rw [htokens, ← hsplit, ← ht]
    exact .raised (by rwa [error_past] at he)

theorem source (h : Moves r failure after) : after.source = r.source := by
  cases h with
  | taken ts rest => exact r.source_past _ _
  | raised _ => exact r.source_past _ _

theorem position_le (h : Moves r failure after) (hplace : r.InPlace) :
    r.position ≤ after.position := by
  cases h with
  | taken ts rest ht => exact hplace.position_le_past ht
  | raised _ => exact hplace.position_le_past (List.append_nil _).symm

theorem of_after {t : Token} {rest : List Token} (ht : r.tokens = t :: rest)
    (h : Moves (r.after t rest) failure after) : Moves r failure after :=
  of_past (show r.tokens = [t] ++ rest from ht) h

end Moves

section

variable [Host] {r : Reader}

theorem next_moves (r : Reader) : Moves r (failure? r.next.1) r.next.2 := by
  unfold next
  split
  · exact .refl r
  · exact .of_tokens_eq_nil ‹_› ‹_›
  · exact .refl r

theorem take_moves (r : Reader) : Moves r (failure? r.take.1) r.take.2 := by
  unfold take
  split
  · exact .of_after ‹_› (.refl _)
  · exact .of_tokens_eq_nil ‹_› ‹_›
  · rename_i ht he
    exact .taken [] r.tokens rfl fun e _ => .inl he

theorem readFrom_moves (pending : List Pending) {ts : List Token} (hts : r.tokens = ts) :
    Moves r (failure? (r.readFrom pending ts).1) (r.readFrom pending ts).2 := by
  induction ts generalizing r pending with
  | nil =>
    rw [readFrom]
    split
    · exact .of_tokens_eq_nil hts ‹_›
    · rename_i he
      exact .taken [] r.tokens rfl fun e _ => .inl he
  | cons t rest ih =>
    cases hfeed : t.feed pending with
    | error e =>
      rw [r.readFrom_cons_error hfeed]
      refine .taken [t] rest hts fun e' he' => .inr ⟨t, List.mem_singleton_self t, pending, ?_⟩
      cases he'
      exact hfeed
    | ok progress =>
      rw [r.readFrom_cons_ok hfeed]
      refine .of_after hts ?_
      cases progress with
      | complete v => exact .refl _
      | waiting pending => exact ih pending rfl

theorem readAll_moves (r : Reader) : Moves r r.readAll.error r.readAll.reader := by
  fun_induction Reader.readAll r with
  | case1 r e ht he => exact .of_tokens_eq_nil ht he
  | case2 r ht he => exact .refl r
  | case3 r t ts hts e after hread =>
    have hmoves := r.readFrom_moves [] rfl
    rw [← read, hread] at hmoves
    exact hmoves
  | case4 r t ts hts v after hread others ih =>
    obtain ⟨ts, rest, htokens, -, rfl⟩ := read_sound hread
    exact .of_past htokens ih

theorem perform_moves (r : Reader) (op : Operation) :
    Moves r (r.perform op).1.error? (r.perform op).2 := by
  cases op with
  | next => exact r.next_moves
  | take => exact r.take_moves
  | read => exact r.readFrom_moves [] rfl
  | readAll => exact r.readAll_moves
  | rest => exact .refl r

/-! ## What operations keep -/

theorem afterEach_cons (r : Reader) (op : Operation) (ops : List Operation) :
    r.afterEach (op :: ops) = (r.perform op).2.afterEach ops := rfl

theorem source_afterEach (r : Reader) (ops : List Operation) :
    (r.afterEach ops).source = r.source := by
  induction ops generalizing r with
  | nil => rfl
  | cons op ops ih => rw [afterEach_cons, ih, (r.perform_moves op).source]

theorem answers_append (r : Reader) (ops more : List Operation) :
    r.answers (ops ++ more) = r.answers ops ++ (r.afterEach ops).answers more := by
  induction ops generalizing r with
  | nil => rfl
  | cons op ops ih => rw [List.cons_append, answers, answers, ih, afterEach_cons, List.cons_append]

/-! ### At the end -/

section

variable (ht : r.tokens = []) (he : r.error = none)
include ht he

-- At its end a reader answers every operation in the same way, and stays as it is.
theorem perform_of_tokens_eq_nil (op : Operation) :
    r.perform op = (op.answerAtEnd r.source r.position, r) := by
  cases op with
  | next =>
    rw [perform, next]
    simp only [ht, he]
    rfl
  | take =>
    rw [perform, take]
    simp only [ht, he]
    rfl
  | read =>
    rw [perform, read, readFrom.eq_def]
    simp only [ht, he]
    rfl
  | readAll =>
    rw [perform, readAll_of_tokens_eq_nil ht he]
    rfl
  | rest => rfl

theorem afterEach_of_tokens_eq_nil (ops : List Operation) : r.afterEach ops = r := by
  induction ops with
  | nil => rfl
  | cons op ops ih => rw [afterEach_cons, perform_of_tokens_eq_nil ht he, ih]

theorem answers_of_tokens_eq_nil (ops : List Operation) :
    r.answers ops = ops.map fun op => (op.answerAtEnd r.source r.position, r.position) := by
  induction ops with
  | nil => rfl
  | cons op ops ih => rw [answers, perform_of_tokens_eq_nil ht he, List.map_cons, ih]

end

namespace Reached

variable {start : Nat}

theorem moves (h : r.Reached start) {failure : Option ReadError} {after : Reader}
    (hmoves : Moves r failure after) (hr : ¬ r.Raised start) : after.Reached start := by
  cases h with
  | raised h _ => exact absurd h hr
  | inPlace hplace herror =>
    cases hmoves with
    | taken ts rest ht =>
      refine .inPlace (hplace.past ht) ?_
      rw [error_past, source_past, herror]
    | raised he =>
      refine .raised ⟨?_, rfl⟩ (r.tokens_past (List.append_nil _).symm)
      change (lex (r.past r.tokens []).source start).error.isSome
      rw [source_past, ← herror, he]
      rfl

theorem perform (h : r.Reached start) (op : Operation) : (r.perform op).2.Reached start := by
  by_cases hr : r.Raised start
  · rwa [perform_of_tokens_eq_nil (h.tokens_of_raised hr) hr.2]
  · exact h.moves (r.perform_moves op) hr

theorem position_le_perform (h : r.Reached start) (op : Operation) :
    r.position ≤ (r.perform op).2.position := by
  by_cases hr : r.Raised start
  · rw [perform_of_tokens_eq_nil (h.tokens_of_raised hr) hr.2]
  · exact (r.perform_moves op).position_le (h.inPlace_of_not_raised hr)

/-- The error that ended the tokens is reported exactly when it is taken from ahead: no token is
refused with the same error, since it is blamed on a place after all of them. -/
theorem raised_iff (h : r.Reached start) {failure : Option ReadError} {after : Reader}
    (hmoves : Moves r failure after) (hr : ¬ r.Raised start) :
    after.Raised start ↔ ∃ e, (lex r.source start).error = some e ∧ failure = some e := by
  cases h with
  | raised h _ => exact absurd h hr
  | inPlace hplace herror =>
    rw [Raised, hmoves.source, ← herror]
    cases hmoves with
    | raised he => exact ⟨fun _ => ⟨_, he, rfl⟩, fun _ => ⟨by rw [he]; rfl, rfl⟩⟩
    | taken ts rest ht hf =>
      rw [error_past]
      constructor
      · rintro ⟨hsome, hnone⟩
        rw [hnone] at hsome
        cases hsome
      · rintro ⟨e, he, rfl⟩
        obtain hnone | ⟨t, htmem, pending, hfeed⟩ := hf e rfl
        · rw [he] at hnone
          cases hnone
        · have hlt := Token.position_lt_stop_of_feed hfeed
          have hle := hplace.stop_le he t (by rw [ht]; exact List.mem_append_left _ htmem)
          omega

theorem afterEach (h : r.Reached start) (ops : List Operation) :
    (r.afterEach ops).Reached start := by
  induction ops generalizing r with
  | nil => exact h
  | cons op ops ih => exact ih (h.perform op)

theorem position_le_afterEach (h : r.Reached start) (ops : List Operation) :
    r.position ≤ (r.afterEach ops).position := by
  induction ops generalizing r with
  | nil => exact Nat.le_refl _
  | cons op ops ih => exact Nat.le_trans (h.position_le_perform op) (ih (h.perform op))

theorem raised_afterEach_iff (h : r.Reached start) (hr : ¬ r.Raised start) (ops : List Operation) :
    (r.afterEach ops).Raised start ↔
      ∃ e, (lex r.source start).error = some e ∧ ∃ a ∈ r.answers ops, a.1.error? = some e := by
  induction ops generalizing r with
  | nil => simp [Reader.afterEach, answers, hr]
  | cons op ops ih =>
    have hop := h.raised_iff (r.perform_moves op) hr
    rw [afterEach_cons, answers]
    by_cases hraised : (r.perform op).2.Raised start
    · have htokens := (h.perform op).tokens_of_raised hraised
      obtain ⟨e, he, hreport⟩ := hop.1 hraised
      rw [afterEach_of_tokens_eq_nil htokens hraised.2]
      exact ⟨fun _ => ⟨e, he, _, List.mem_cons_self, hreport⟩, fun _ => hraised⟩
    · rw [ih (h.perform op) hraised, (r.perform_moves op).source]
      -- The first answer reports something else, so a report is one of the others.
      simp only [List.mem_cons, exists_eq_or_imp]
      constructor
      · rintro ⟨e, he, hreport⟩
        exact ⟨e, he, .inr hreport⟩
      · rintro ⟨e, he, hreport | hreport⟩
        · exact absurd (hop.2 ⟨e, he, hreport⟩) hraised
        · exact ⟨e, he, hreport⟩

end Reached

end

/-- Whatever has been asked of a reader and however it was answered, all that can be observed of it
depends on its position, which never goes back. As long as the error that ends the tokens has not
been reported, the reader answers as a new one that starts at its position. A look at the next
token, unless it reports that error, changes no other answer. Once the error has been reported,
the reader stays where it is and answers as at the end of the source, save for what it leaves. -/
theorem determined_by_position [Host] (source : List Char) (start : Nat) (ops : List Operation)
    (r : Reader) (hr : (ofSource source start).afterEach ops = r) :
    (start ≤ r.position ∧ ∀ more, r.position ≤ (r.afterEach more).position) ∧
      (¬ r.Raised start → ∀ more, r.answers more = (ofSource source r.position).answers more) ∧
      (∀ t, r.next.1 = .ok t → ∀ more,
        (ofSource source start).answers (ops ++ more) =
          (ofSource source start).answers ops ++ r.answers more ∧
        (ofSource source start).answers (ops ++ .next :: more) =
          (ofSource source start).answers ops ++ (.next (.ok t), r.position) :: r.answers more) ∧
      (r.Raised start → ∀ more, r.answers more =
        more.map fun op => (op.answerAtEnd source r.position, r.position)) ∧
      ReadFault.unexpectedEnd.message = "Unexpected end of input" ∧
      (r.Raised start ↔ ∃ e, (lex source start).error = some e ∧
        ∃ a ∈ (ofSource source start).answers ops, a.1.error? = some e) := by
  have hstart := reached_ofSource source start
  have hreached : r.Reached start := hr ▸ hstart.afterEach ops
  have hsource : r.source = source := by rw [← hr, source_afterEach]; rfl
  refine ⟨⟨?_, fun more => hreached.position_le_afterEach more⟩, ?_, ?_, ?_, rfl, ?_⟩
  · rw [← hr]
    exact hstart.position_le_afterEach ops
  · intro hraised more
    rw [← hsource, ← (hreached.inPlace_of_not_raised hraised).eq_ofSource]
  · intro t ht more
    refine ⟨by rw [answers_append, hr], ?_⟩
    rw [answers_append, hr, answers, perform, next_of_ok ht]
  · intro hraised more
    rw [answers_of_tokens_eq_nil (hreached.tokens_of_raised hraised) hraised.2, hsource]
  · have hfresh : ¬ (ofSource source start).Raised start := by
      rintro ⟨hsome, hnone⟩
      rw [ofSource] at hnone
      exact absurd hnone (Option.isSome_iff_ne_none.1 hsome)
    rw [← hr]
    exact hstart.raised_afterEach_iff hfresh ops

/-- The third value is a parenthesis that closes nothing, so reading it fails, but the reader goes
on as a new one would. In the list after it the lexer raises, which ends all reading. -/
theorem determined_by_position_stray :
    ∃ source r ended, source = "1 'x ) (a \"b".toList ∧
      (ofSource source 0).afterEach [.next, .read, .read, .read] = r ∧ ¬ r.Raised 0 ∧
      r.answers [.take, .rest] = (ofSource source 6).answers [.take, .rest] ∧
      (ofSource source 0).answers [.next, .read, .read, .read, .next, .take] =
        (ofSource source 0).answers [.next, .read, .read, .read] ++
          (.next r.next.1, 6) :: r.answers [.take] ∧
      (r.perform .read).2 = ended ∧ ended.Raised 0 ∧ ended.answers [.next, .read, .rest] =
        [(.next (.ok none), 9), (.read (.error ⟨.unexpectedEnd, 12⟩), 9), (.rest "\"b", 9)] := by
  obtain ⟨source, hsource⟩ : ∃ source, source = "1 'x ) (a \"b".toList := ⟨_, rfl⟩
  obtain ⟨r, hr⟩ : ∃ r, (ofSource source 0).afterEach [.next, .read, .read, .read] = r := ⟨_, rfl⟩
  have hnot : ¬ r.Raised 0 := by
    rw [← hr, hsource]
    decide +kernel
  have hposition : r.position = 6 := by
    rw [← hr, hsource]
    decide +kernel
  have hended : (r.perform .read).2.Raised 0 ∧ (r.perform .read).2.position = 9 := by
    rw [← hr, hsource]
    decide +kernel
  obtain ⟨t, ht⟩ : ∃ t, r.next.1 = .ok t := by
    rw [← hr, hsource]
    decide +kernel
  obtain ⟨-, hfresh, hpeek, -⟩ := determined_by_position source 0 _ r hr
  obtain ⟨-, -, -, hend, -⟩ := determined_by_position source 0
    [.next, .read, .read, .read, .read] (r.perform .read).2 (by rw [← hr]; rfl)
  refine ⟨source, r, _, hsource, hr, hnot, ?_, ?_, rfl, hended.1, ?_⟩
  · rw [hfresh hnot, hposition]
  · rw [ht, ← hposition]
    exact (hpeek t ht [.take]).2
  · rw [hend hended.1, hended.2, hsource]
    rfl

end Reader

end MiniLisp
