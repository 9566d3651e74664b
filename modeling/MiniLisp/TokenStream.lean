import MiniLisp.Reader

/-!
The token stream: a source that is lexed no further than reading has come.

The lexer gives one token at a time and goes on where that ends. Once it has come to the end of the
source, or has raised an error, it gives nothing more. A token that has been looked at and not taken
waits in a buffer. Expressions are read by recursive descent: each operation leaves less ahead than
there was, which is why reading ends. The host is assumed to have the stack that the descent takes.
-/

namespace MiniLisp

/-- What the lexer gives from a position on: a token, an error, or nothing at the end. -/
def lexOne (source : List Char) (position : Nat) : Except ReadError (Option Token) :=
  match source.drop (skipGap source position) with
  | [] => .ok none
  | c :: rest =>
    match Lexeme.first? (c :: rest) with
    | none => .error ⟨lexFault c, skipGap source position⟩
    | some lexeme => .ok (some ⟨lexeme, skipGap source position⟩)

-- A token ends after the place where the lexer went on, and inside the source.
theorem stop_of_lexOne {source : List Char} {position : Nat} {t : Token}
    (h : lexOne source position = .ok (some t)) : position < t.stop ∧ t.stop ≤ source.length := by
  unfold lexOne at h
  split at h
  · cases h
  · rename_i c rest hcs
    split at h
    · cases h
    · rename_i lexeme hfirst
      cases h
      have hpos := List.length_pos_iff.2 lexeme.chars_ne_nil
      have hprefix := (Lexeme.first?_isPrefix hfirst).length_le
      have hlength := congrArg List.length hcs
      rw [List.length_drop] at hlength
      have hskip : min position source.length ≤ skipGap source position := Nat.le_add_right _ _
      rw [List.length_cons] at hlength hprefix
      simp only [Token.stop]
      omega

structure TokenStream where
  source : List Char
  /-- Where the lexer goes on, until it has nothing more to give. -/
  lexer : Option Nat
  /-- The token that has been looked at and not taken. -/
  buffer : Option Token
  /-- The end of the last token taken; before the first, where reading started. -/
  position : Nat

namespace TokenStream

def ofSource (source : List Char) (position : Nat) : TokenStream :=
  ⟨source, some position, none, position⟩

def ofString (source : String) : TokenStream := ofSource source.toList 0

/-- The next token, which stays ahead; `none` at the end. -/
def peek (s : TokenStream) : Except ReadError (Option Token) × TokenStream :=
  match s.buffer, s.lexer with
  | some t, _ => (.ok (some t), s)
  | none, none => (.ok none, s)
  | none, some position =>
    match lexOne s.source position with
    | .ok (some t) => (.ok (some t), { s with lexer := some t.stop, buffer := some t })
    | .ok none => (.ok none, { s with lexer := none })
    | .error e => (.error e, { s with lexer := none })

def advance (s : TokenStream) : Except ReadError Token × TokenStream :=
  match s.peek with
  | (.ok (some t), s) => (.ok t, { s with buffer := none, position := t.stop })
  | (.ok none, s) => (.error ⟨.unexpectedEnd, s.source.length⟩, s)
  | (.error e, s) => (.error e, s)

/-- The source after the last token taken and the blanks and comments that follow it. -/
def remainder (s : TokenStream) : String :=
  String.ofList (s.source.drop (skipGap s.source s.position))

/-! ## What is ahead -/

/-- A bound on the tokens ahead: the one in the buffer, and the characters not yet lexed. -/
def size (s : TokenStream) : Nat :=
  s.buffer.toList.length + s.lexer.elim 0 (s.source.length - ·)

-- A token that has been looked at is in the buffer.
theorem buffer_of_peek {s after : TokenStream} {t : Token} (h : s.peek = (.ok (some t), after)) :
    after.buffer = some t := by
  unfold peek at h
  split at h
  · cases h
    assumption
  · cases h
  · split at h <;> cases h
    rfl

section

variable {s after : TokenStream}

theorem size_le_of_peek {result : Except ReadError (Option Token)} (h : s.peek = (result, after)) :
    after.size ≤ s.size := by
  unfold peek at h
  split at h
  · cases h
    exact Nat.le_refl _
  · cases h
    exact Nat.le_refl _
  · rename_i position hbuffer hlexer
    split at h
    · rename_i t hone
      have hstop := stop_of_lexOne hone
      cases h
      simp only [size, hbuffer, hlexer, Option.elim, Option.toList, List.length]
      omega
    · cases h
      simp [size, hbuffer]
    · cases h
      simp [size, hbuffer]

theorem size_pos_of_peek {t : Token} (h : s.peek = (.ok (some t), after)) : 0 < after.size := by
  simp only [size, buffer_of_peek h, Option.toList, List.length]
  omega

-- Where no token is ahead, nothing at all is.
theorem size_of_peek {result : Except ReadError (Option Token)} (h : s.peek = (result, after))
    (hnone : ∀ t, result ≠ .ok (some t)) : after.size = 0 := by
  unfold peek at h
  split at h
  · cases h
    exact absurd rfl (hnone _)
  · cases h
    simp [size, *]
  · split at h
    · cases h
      exact absurd rfl (hnone _)
    · cases h
      simp [size, *]
    · cases h
      simp [size, *]

theorem size_le_of_advance {result : Except ReadError Token} (h : s.advance = (result, after)) :
    after.size ≤ s.size - 1 := by
  unfold advance at h
  split at h <;> cases h <;> rename_i peeked hpeek
  · have hle := size_le_of_peek hpeek
    simp only [size, buffer_of_peek hpeek, Option.toList, List.length] at hle ⊢
    omega
  · rw [size_of_peek hpeek nofun]
    exact Nat.zero_le _
  · rw [size_of_peek hpeek nofun]
    exact Nat.zero_le _

theorem size_lt_of_advance {t : Token} (h : s.advance = (.ok t, after)) : after.size < s.size := by
  have hle := size_le_of_advance h
  have hpos : 0 < s.size := by
    unfold advance at h
    split at h <;> cases h
    rename_i peeked hpeek
    exact Nat.lt_of_lt_of_le (size_pos_of_peek hpeek) (size_le_of_peek hpeek)
  omega

end

end TokenStream

/-! ## Expressions -/

/-- What reading gives, and the stream it leaves, which has no more than `bound` ahead. -/
structure Parsed (bound : Nat) where
  result : Except ReadError Value
  stream : TokenStream
  size_le : stream.size ≤ bound

def Parsed.widen {bound bound' : Nat} (h : bound ≤ bound') (p : Parsed bound) : Parsed bound' :=
  ⟨p.result, p.stream, Nat.le_trans p.size_le h⟩

def Parsed.outcome {bound : Nat} (p : Parsed bound) : Except ReadError Value × TokenStream :=
  (p.result, p.stream)

namespace TokenStream

variable [Host]

mutual

/-- Reads one expression. -/
def parse (s : TokenStream) : Parsed (s.size - 1) :=
  match h : s.advance with
  | (.error e, after) => ⟨.error e, after, size_le_of_advance h⟩
  | (.ok t, after) =>
    have hlt := size_lt_of_advance h
    match t.cls with
    | .quote =>
      match after.parse with
      | ⟨result, later, hlater⟩ =>
        ⟨result.map .quoted, later, Nat.le_trans hlater (Nat.sub_le_sub_right (Nat.le_of_lt hlt) 1)⟩
    | .openParen => (after.parseItems t.start []).widen (size_le_of_advance h)
    | .closeParen => ⟨.error ⟨.unexpectedClose, t.start⟩, after, size_le_of_advance h⟩
    | _ => ⟨t.atom, after, size_le_of_advance h⟩
termination_by 2 * s.size

/-- Reads on in the list that opened at `start`, after some items. -/
def parseItems (s : TokenStream) (start : Nat) (items : List Value) : Parsed s.size :=
  match h : s.peek with
  | (.error e, after) => ⟨.error e, after, size_le_of_peek h⟩
  | (.ok none, after) => ⟨.error ⟨.unmatchedOpen, start⟩, after, size_le_of_peek h⟩
  | (.ok (some t), after) =>
    have hle := size_le_of_peek h
    have _hpos := size_pos_of_peek h
    have hless := Nat.le_trans (Nat.sub_le after.size 1) hle
    if t.cls = .closeParen then
      ⟨.ok (.sequence items), after.advance.2, Nat.le_trans (size_le_of_advance rfl) hless⟩
    else
      match after.parse with
      | ⟨.error e, later, hlater⟩ => ⟨.error e, later, Nat.le_trans hlater hless⟩
      | ⟨.ok v, later, hlater⟩ =>
        (later.parseItems start (items ++ [v])).widen (Nat.le_trans hlater hless)
termination_by 2 * s.size + 1
decreasing_by all_goals omega

end

/-- What reading a stream to its end gives: the values up to the first error, that error if there
is one, and the stream afterwards. -/
structure ReadThrough where
  values : List Value
  error : Option ReadError
  stream : TokenStream

/-- Reads expressions until no token is ahead. -/
def parseAll (s : TokenStream) : ReadThrough :=
  match h : s.peek with
  | (.error e, after) => ⟨[], some e, after⟩
  | (.ok none, after) => ⟨[], none, after⟩
  | (.ok (some _), after) =>
    match after.parse with
    | ⟨.error e, later, _⟩ => ⟨[], some e, later⟩
    | ⟨.ok v, later, _hlater⟩ =>
      have _hle := size_le_of_peek h
      have _hpos := size_pos_of_peek h
      let others := later.parseAll
      ⟨v :: others.values, others.error, others.stream⟩
termination_by s.size
decreasing_by omega

end TokenStream

end MiniLisp
