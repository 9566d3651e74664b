import MiniLisp.Proofs.Reader.Operations
import MiniLisp.TokenStream

/-!
# Reading from a stream

A token stream stands for the reader that has ahead of it the token in the buffer and whatever the
lexer has still to give (`TokenStream.toReader`). Every operation on the stream answers what the
operation on this reader answers, and leaves a stream for the reader that is left: looking and
taking by the cases of the lexer, an expression by recursive descent beside the stack of those that
wait. So the two answer any row of operations alike, and a new stream answers as a new reader
(`TokenStream.answers_ofSource`).
-/

namespace MiniLisp

/-- A source is lexed one token at a time. -/
theorem lex_eq_lexOne (source : List Char) (position : Nat) : lex source position =
    match lexOne source position with
    | .ok (some t) => (lex source t.stop).prepend [t]
    | .ok none => ⟨[], none⟩
    | .error e => ⟨[], some e⟩ := by
  rw [lex_eq, lexOne]
  cases hcs : source.drop (skipGap source position) with
  | nil => rfl
  | cons c rest => cases hfirst : Lexeme.first? (c :: rest) <;> simp only [hfirst, Token.stop]

namespace TokenStream

/-- What the lexer has still to give. -/
def unlexed (s : TokenStream) : Lexing := s.lexer.elim ⟨[], none⟩ (lex s.source)

/-- The reader that a stream stands for. -/
def toReader (s : TokenStream) : Reader where
  source := s.source
  tokens := s.buffer.toList ++ s.unlexed.tokens
  error := s.unlexed.error
  position := s.position

theorem toReader_ofSource (source : List Char) (position : Nat) :
    (ofSource source position).toReader = Reader.ofSource source position := rfl

theorem remainder_eq (s : TokenStream) : s.remainder = s.toReader.rest := rfl

/-! ## Tokens -/

theorem next_toReader (s : TokenStream) : s.toReader.next = (s.peek.1, s.peek.2.toReader) := by
  rcases s with ⟨source, lexer, _ | t, position⟩
  · cases lexer with
    | none => rfl
    | some place =>
      have hlex := lex_eq_lexOne source place
      rcases hone : lexOne source place with e | _ | t <;> rw [hone] at hlex <;>
        simp [peek, hone, Reader.next, toReader, unlexed, hlex, Lexing.prepend, Reader.finished]
  · rfl

section

variable {s after : TokenStream} {t : Token} {e : ReadError}

theorem peek_eq_some (h : s.peek = (.ok (some t), after)) :
    after.toReader = s.toReader ∧ s.toReader.tokens = t :: after.unlexed.tokens := by
  have hnext := s.next_toReader
  rw [h] at hnext
  have hsame : s.toReader = after.toReader :=
    congrArg Prod.snd ((Reader.next_of_ok (congrArg Prod.fst hnext)).symm.trans hnext)
  refine ⟨hsame.symm, ?_⟩
  rw [hsame, toReader, buffer_of_peek h]
  rfl

theorem peek_eq_none (h : s.peek = (.ok none, after)) :
    after.toReader = s.toReader ∧ s.toReader.tokens = [] ∧ s.toReader.error = none := by
  have hnext := s.next_toReader
  rw [h, Reader.next] at hnext
  split at hnext <;> injection hnext with hresult hafter
  · cases hresult
  · cases hresult
  · exact ⟨hafter.symm, ‹_›, ‹_›⟩

theorem peek_eq_error (h : s.peek = (.error e, after)) : after.toReader = s.toReader.finished ∧
    s.toReader.tokens = [] ∧ s.toReader.error = some e := by
  have hnext := s.next_toReader
  rw [h, Reader.next] at hnext
  split at hnext <;> injection hnext with hresult hafter
  · cases hresult
  · cases hresult
    exact ⟨hafter.symm, ‹_›, ‹_›⟩
  · cases hresult

end

theorem take_toReader (s : TokenStream) :
    s.toReader.take = (s.advance.1, s.advance.2.toReader) := by
  rcases hpeek : s.peek with ⟨_ | _ | t, after⟩
  · obtain ⟨hafter, htokens, herror⟩ := peek_eq_error hpeek
    simp only [Reader.take, advance, hpeek, htokens, herror, hafter]
  · obtain ⟨hafter, htokens, herror⟩ := peek_eq_none hpeek
    simp only [Reader.take, advance, hpeek, htokens, herror, hafter]
    rw [← hafter]
    rfl
  · obtain ⟨hafter, htokens⟩ := peek_eq_some hpeek
    simp only [Reader.take, advance, hpeek, htokens]
    rw [← hafter]
    rfl

/-! ## Expressions -/

-- A token is taken by looking at it first.
theorem advance_eq_ok {s after : TokenStream} {t : Token} (h : s.advance = (.ok t, after)) :
    s.toReader.tokens = t :: after.toReader.tokens ∧
      after.toReader = s.toReader.after t after.toReader.tokens := by
  have htake := s.take_toReader
  rw [h, Reader.take] at htake
  split at htake <;> injection htake with hresult hafter
  · cases hresult
    rw [← hafter]
    exact ⟨‹_›, rfl⟩
  · cases hresult
  · cases hresult

theorem toReader_advance {s : TokenStream} {t : Token} {ts : List Token}
    (h : s.toReader.tokens = t :: ts) : s.advance.2.toReader = s.toReader.after t ts := by
  have htake := s.take_toReader
  rw [Reader.take] at htake
  simp only [h] at htake
  exact (congrArg Prod.snd htake).symm

theorem advance_eq_error {s after : TokenStream} {e : ReadError}
    (h : s.advance = (.error e, after)) : s.toReader.tokens = [] ∧
      (s.toReader.error = some e ∧ after.toReader = s.toReader.finished ∨
        s.toReader.error = none ∧ e = s.toReader.unexpectedEnd ∧ after.toReader = s.toReader) := by
  have htake := s.take_toReader
  rw [h, Reader.take] at htake
  split at htake <;> injection htake with hresult hafter
  · cases hresult
  · cases hresult
    exact ⟨‹_›, .inl ⟨‹_›, hafter.symm⟩⟩
  · cases hresult
    exact ⟨‹_›, .inr ⟨‹_›, rfl, hafter.symm⟩⟩

/-- Where an expression is asked for: in a list, only before a token that does not close it. -/
def Begins (r : Reader) : List Pending → Prop
  | .list _ _ :: _ => ∃ t ts, r.tokens = t :: ts ∧ t.cls ≠ .closeParen
  | _ => True

theorem Begins.endError_eq {r : Reader} {pending : List Pending} (h : Begins r pending)
    (ht : r.tokens = []) : r.endError pending = r.unexpectedEnd := by
  rcases pending with _ | ⟨_ | ⟨start, items⟩, outer⟩
  · rfl
  · rfl
  · obtain ⟨t, ts, htokens, -⟩ := h
    rw [ht] at htokens
    cases htokens

variable [Host]

theorem Begins.feed_closeParen {r : Reader} {pending : List Pending} (h : Begins r pending)
    {t : Token} {ts : List Token} (ht : r.tokens = t :: ts) (hclose : t.cls = .closeParen) :
    t.feed pending = .error ⟨.unexpectedClose, t.start⟩ := by
  refine Token.feed_closeParen_error hclose fun ⟨start, items, outer, hpending⟩ => ?_
  obtain ⟨u, us, htokens, hother⟩ : Begins r (.list start items :: outer) := hpending ▸ h
  rw [ht] at htokens
  cases htokens
  exact hother hclose

/-- How reading goes on after an expression, before those that wait for it. -/
def resume (pending : List Pending) : Except ReadError Value × TokenStream →
    Except ReadError Value × Reader
  | (.error e, s) => (.error e, s.toReader)
  | (.ok v, s) =>
    match Pending.deliver v pending with
    | .complete w => (.ok w, s.toReader)
    | .waiting pending => s.toReader.readFrom pending s.toReader.tokens

theorem resume_quote (pending : List Pending) (result : Except ReadError Value)
    (s : TokenStream) :
    resume (.quote :: pending) (result, s) = resume pending (result.map .quoted, s) := by
  cases result <;> rfl

theorem resume_list (pending : List Pending) (start : Nat) (items : List Value) (v : Value)
    (s : TokenStream) : resume (.list start items.reverse :: pending) (.ok v, s) =
      s.toReader.readFrom (.list start (items ++ [v]).reverse :: pending) s.toReader.tokens := by
  rw [List.reverse_append]
  rfl

theorem parse_of_error {s after : TokenStream} {e : ReadError} (h : s.advance = (.error e, after)) :
    s.parse.outcome = (.error e, after) := by
  rw [parse]
  split <;> simp_all [Parsed.outcome]

theorem parse_of_ok {s after : TokenStream} {t : Token} (h : s.advance = (.ok t, after)) :
    s.parse.outcome = match t.cls with
      | .quote => (after.parse.result.map .quoted, after.parse.stream)
      | .openParen => (after.parseItems t.start []).outcome
      | .closeParen => (.error ⟨.unexpectedClose, t.start⟩, after)
      | _ => (t.atom, after) := by
  rw [parse]
  split <;> rename_i heq <;> rw [h] at heq <;> cases heq
  cases t.cls <;> rfl

theorem parseItems_of_error {s after : TokenStream} {e : ReadError}
    (h : s.peek = (.error e, after)) (start : Nat) (items : List Value) :
    (s.parseItems start items).outcome = (.error e, after) := by
  rw [parseItems]
  split <;> simp_all [Parsed.outcome]

theorem parseItems_of_none {s after : TokenStream} (h : s.peek = (.ok none, after)) (start : Nat)
    (items : List Value) :
    (s.parseItems start items).outcome = (.error ⟨.unmatchedOpen, start⟩, after) := by
  rw [parseItems]
  split <;> simp_all [Parsed.outcome]

theorem parseItems_of_some {s after : TokenStream} {t : Token}
    (h : s.peek = (.ok (some t), after)) (start : Nat) (items : List Value) :
    (s.parseItems start items).outcome =
      if t.cls = .closeParen then (.ok (.sequence items), after.advance.2)
      else match after.parse.outcome with
        | (.error e, later) => (.error e, later)
        | (.ok v, later) => (later.parseItems start (items ++ [v])).outcome := by
  rw [parseItems]
  split <;> rename_i heq <;> rw [h] at heq <;> cases heq
  split
  · rfl
  · rcases after.parse with ⟨e | v, later, hlater⟩ <;> rfl

mutual

/-- The stack of those that wait is what the descent comes back to. -/
theorem readFrom_eq_parse (s : TokenStream) (pending : List Pending)
    (h : Begins s.toReader pending) :
    s.toReader.readFrom pending s.toReader.tokens = resume pending s.parse.outcome := by
  rcases hadvance : s.advance with ⟨e | t, after⟩
  · rw [parse_of_error hadvance]
    obtain ⟨htokens, ⟨herror, hafter⟩ | ⟨herror, rfl, hafter⟩⟩ := advance_eq_error hadvance
    · simp only [htokens, Reader.readFrom, herror, resume, hafter]
    · simp only [htokens, Reader.readFrom, herror, resume, hafter, h.endError_eq htokens]
  · obtain ⟨htokens, hafter⟩ := advance_eq_ok hadvance
    have hlt := size_lt_of_advance hadvance
    rw [parse_of_ok hadvance, htokens, Reader.readFrom, ← hafter]
    cases hcls : t.cls with
    | quote =>
      rw [Token.feed_quote hcls]
      exact (readFrom_eq_parse after (.quote :: pending) trivial).trans (resume_quote _ _ _)
    | openParen =>
      rw [Token.feed_openParen hcls]
      exact readFrom_eq_parseItems after t.start [] pending
    | closeParen =>
      rw [h.feed_closeParen htokens hcls]
      rfl
    | _ =>
      rw [Token.feed_atom (by rw [hcls]; rfl)]
      cases t.atom with
      | error e => rfl
      | ok v =>
        dsimp only [Except.map, resume]
        cases Pending.deliver v pending <;> rfl
termination_by 2 * s.size

theorem readFrom_eq_parseItems (s : TokenStream) (start : Nat) (items : List Value)
    (pending : List Pending) :
    s.toReader.readFrom (.list start items.reverse :: pending) s.toReader.tokens =
      resume pending (s.parseItems start items).outcome := by
  rcases hpeek : s.peek with ⟨e | _ | t, after⟩
  · obtain ⟨hafter, htokens, herror⟩ := peek_eq_error hpeek
    rw [parseItems_of_error hpeek]
    simp only [htokens, Reader.readFrom, herror, resume, hafter]
  · obtain ⟨hafter, htokens, herror⟩ := peek_eq_none hpeek
    rw [parseItems_of_none hpeek]
    simp only [htokens, Reader.readFrom, herror, resume, hafter, Reader.endError]
  · obtain ⟨hafter, htokens⟩ := peek_eq_some hpeek
    have hle := size_le_of_peek hpeek
    have hpos := size_pos_of_peek hpeek
    rw [← hafter] at htokens ⊢
    rw [parseItems_of_some hpeek]
    by_cases hclose : t.cls = .closeParen
    · rw [if_pos hclose, htokens, Reader.readFrom, Token.feed_closeParen_list hclose,
        List.reverse_reverse, resume, toReader_advance htokens]
      cases Pending.deliver (.sequence items) pending <;> rfl
    · have hbegins : Begins after.toReader (.list start items.reverse :: pending) :=
        ⟨t, _, htokens, hclose⟩
      rw [if_neg hclose, readFrom_eq_parse after _ hbegins]
      rcases hparse : after.parse with ⟨e | v, later, hlater⟩
      · rfl
      · exact (resume_list pending start items v later).trans
          (readFrom_eq_parseItems later start (items ++ [v]) pending)
termination_by 2 * s.size + 1
decreasing_by all_goals omega

end

theorem read_toReader (s : TokenStream) :
    s.toReader.read = (s.parse.result, s.parse.stream.toReader) := by
  rw [Reader.read, readFrom_eq_parse s [] trivial]
  rcases s.parse with ⟨e | v, later, hlater⟩ <;> rfl

section

variable {s after later : TokenStream} {t : Token}

theorem readAll_of_parse_error (h : s.peek = (.ok (some t), after)) {e : ReadError}
    (hparse : after.parse.outcome = (.error e, later)) :
    s.toReader.readAll = ⟨[], some e, later.toReader⟩ := by
  obtain ⟨hafter, htokens⟩ := peek_eq_some h
  obtain ⟨hresult, rfl⟩ := Prod.mk.inj hparse
  have hread := after.read_toReader
  rw [hresult, hafter] at hread
  exact Reader.readAll_of_read_error (htokens ▸ List.cons_ne_nil t _) hread

theorem readAll_of_parse_ok (h : s.peek = (.ok (some t), after)) {v : Value}
    (hparse : after.parse.outcome = (.ok v, later)) : s.toReader.readAll =
      ⟨v :: later.toReader.readAll.values, later.toReader.readAll.error,
        later.toReader.readAll.reader⟩ := by
  obtain ⟨hafter, htokens⟩ := peek_eq_some h
  obtain ⟨hresult, rfl⟩ := Prod.mk.inj hparse
  have hread := after.read_toReader
  rw [hresult, hafter] at hread
  exact Reader.readAll_of_read_ok (htokens ▸ List.cons_ne_nil t _) hread

end

theorem readAll_toReader (s : TokenStream) : s.toReader.readAll =
    ⟨s.parseAll.values, s.parseAll.error, s.parseAll.stream.toReader⟩ := by
  fun_induction parseAll s with
  | case1 s e after hpeek =>
    obtain ⟨hafter, htokens, herror⟩ := peek_eq_error hpeek
    rw [Reader.readAll_of_error htokens herror, hafter]
  | case2 s after hpeek =>
    obtain ⟨hafter, htokens, herror⟩ := peek_eq_none hpeek
    rw [Reader.readAll_of_tokens_eq_nil htokens herror, hafter]
  | case3 s t after hpeek e later hlater hparse =>
    exact readAll_of_parse_error hpeek (congrArg Parsed.outcome hparse)
  | case4 s t after hpeek v later hlater hparse hle hpos others ih =>
    rw [readAll_of_parse_ok hpeek (congrArg Parsed.outcome hparse), ih]

/-! ## Rows of operations -/

def perform (s : TokenStream) : Reader.Operation → Reader.Answer × TokenStream
  | .next => (.next s.peek.1, s.peek.2)
  | .take => (.take s.advance.1, s.advance.2)
  | .read => (.read s.parse.result, s.parse.stream)
  | .readAll => (.readAll s.parseAll.values s.parseAll.error, s.parseAll.stream)
  | .rest => (.rest s.remainder, s)

/-- The answers to some operations in order, each with the position after it. -/
def answers (s : TokenStream) : List Reader.Operation → List (Reader.Answer × Nat)
  | [] => []
  | op :: ops =>
    ((s.perform op).1, (s.perform op).2.position) :: (s.perform op).2.answers ops

theorem perform_toReader (s : TokenStream) (op : Reader.Operation) :
    s.toReader.perform op = ((s.perform op).1, (s.perform op).2.toReader) := by
  cases op with
  | next => rw [Reader.perform, next_toReader, perform]
  | take => rw [Reader.perform, take_toReader, perform]
  | read => rw [Reader.perform, read_toReader, perform]
  | readAll => rw [Reader.perform, readAll_toReader, perform]
  | rest => rw [Reader.perform, perform, remainder_eq]

/-- A stream answers any operations as the reader does that it stands for, with the same
positions. -/
theorem answers_eq (s : TokenStream) (ops : List Reader.Operation) :
    s.answers ops = s.toReader.answers ops := by
  induction ops generalizing s with
  | nil => rfl
  | cons op ops ih =>
    rw [answers, Reader.answers, perform_toReader, ih]
    rfl

/-- A new stream answers as a new reader on the same source. -/
theorem answers_ofSource (source : List Char) (position : Nat) (ops : List Reader.Operation) :
    (ofSource source position).answers ops = (Reader.ofSource source position).answers ops := by
  rw [answers_eq, toReader_ofSource]

end TokenStream

end MiniLisp
