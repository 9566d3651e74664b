import MiniLisp.Text.Literal
import MiniLisp.Token
import MiniLisp.Value

/-!
The reader: values from source text.

A reader is a place in a source, with the tokens ahead of it. It gives its tokens in order, then
the error that ended them, once; after that it is at its end.

An expression is an atom, a quote before an expression, or expressions in parentheses. The
expressions that have begun are kept on a stack: a token either begins one more, or completes a
value, which goes to the innermost expression that waits for it. There is no limit on how deep they
may be nested: the host is assumed to have the stack for them.
-/

namespace MiniLisp

structure Reader where
  source : List Char
  tokens : List Token
  /-- What ended the tokens, while it has not been reported. -/
  error : Option ReadError
  /-- The end of the last token taken; before the first, where reading started. -/
  position : Nat

namespace Reader

def ofSource (source : List Char) (position : Nat) : Reader :=
  let lexing := lex source position
  ⟨source, lexing.tokens, lexing.error, position⟩

def ofString (source : String) : Reader := ofSource source.toList 0

/-- The reader without its error, once that is reported. -/
def finished (r : Reader) : Reader := { r with error := none }

/-- The reader after the token `t`, with the tokens `rest` ahead. -/
def after (r : Reader) (t : Token) (rest : List Token) : Reader :=
  { r with tokens := rest, position := t.stop }

/-- The error of needing more than the source holds. -/
def unexpectedEnd (r : Reader) : ReadError := ⟨.unexpectedEnd, r.source.length⟩

/-- The next token, which stays ahead; `none` at the end. -/
def next (r : Reader) : Except ReadError (Option Token) × Reader :=
  match r.tokens, r.error with
  | t :: _, _ => (.ok (some t), r)
  | [], some e => (.error e, r.finished)
  | [], none => (.ok none, r)

def take (r : Reader) : Except ReadError Token × Reader :=
  match r.tokens, r.error with
  | t :: rest, _ => (.ok t, r.after t rest)
  | [], some e => (.error e, r.finished)
  | [], none => (.error r.unexpectedEnd, r)

/-- The source after the last token taken and the blanks and comments that follow it. -/
def rest (r : Reader) : String := String.ofList (r.source.drop (skipGap r.source r.position))

end Reader

/-! ## Expressions -/

/-- An expression that has begun and waits for a value. -/
inductive Pending where
  | quote
  /-- A list that opened at `start`, with its items so far, last first. -/
  | list (start : Nat) (items : List Value)

/-- What a token leads to. -/
inductive Progress where
  | complete (v : Value)
  | waiting (pending : List Pending)

/-- Hands a value to the innermost expression that waits, if there is one. A quote is then itself
complete; a list waits on. -/
def Pending.deliver (v : Value) : List Pending → Progress
  | [] => .complete v
  | .quote :: outer => deliver (.quoted v) outer
  | .list start items :: outer => .waiting (.list start (v :: items) :: outer)

namespace Token

/-- The value of a numeral. The host converts its digits, or raises an error of its own if they are
too many. -/
def number [Host] (t : Token) : Except ReadError Value :=
  match Host.exceeded? (Text.digitCount t.chars) with
  | some limit => .error ⟨.tooManyDigits (Text.digitCount t.chars) limit, t.start⟩
  | none =>
    let n := Text.intOfDigits t.chars
    if Number.InRange n then .ok (.number n) else .error ⟨.numberOutOfRange, t.start⟩

/-- The value of a token that is an expression by itself. -/
def atom [Host] (t : Token) : Except ReadError Value :=
  match t.cls with
  | .number => t.number
  | .text =>
    (Text.decode (t.start + 1) (t.chars.drop 1).dropLast).map fun cs => .text (String.ofList cs)
  | _ =>
    if t.chars = "true".toList then .ok (.boolean true)
    else if t.chars = "false".toList then .ok (.boolean false)
    else .ok (.symbol (Name.ofChars t.chars t.chars_ne_nil))

/-- What a token does to the expressions that wait for values, innermost first. -/
def feed [Host] (t : Token) (pending : List Pending) : Except ReadError Progress :=
  match t.cls with
  | .quote => .ok (.waiting (.quote :: pending))
  | .openParen => .ok (.waiting (.list t.start [] :: pending))
  | .closeParen =>
    match pending with
    | .list _ items :: outer => .ok (Pending.deliver (.sequence items.reverse) outer)
    | _ => .error ⟨.unexpectedClose, t.start⟩
  | _ => t.atom.map fun v => Pending.deliver v pending

end Token

variable [Host]

namespace Reader

/-- The error of a source that ends while expressions wait for values. -/
def endError (r : Reader) : List Pending → ReadError
  | .list start _ :: _ => ⟨.unmatchedOpen, start⟩
  | _ => r.unexpectedEnd

/-- Reads on through the tokens ahead of `r`, given as a list, until the outermost expression is
complete. The tokens read are behind the reader afterwards, also when reading fails. -/
def readFrom (r : Reader) (pending : List Pending) :
    List Token → Except ReadError Value × Reader
  | [] =>
    match r.error with
    | some e => (.error e, r.finished)
    | none => (.error (r.endError pending), r)
  | t :: rest =>
    match t.feed pending with
    | .error e => (.error e, r.after t rest)
    | .ok (.complete v) => (.ok v, r.after t rest)
    | .ok (.waiting pending) => (r.after t rest).readFrom pending rest

def read (r : Reader) : Except ReadError Value × Reader := r.readFrom [] r.tokens

theorem length_tokens_readFrom (r : Reader) (pending : List Pending) (ts : List Token)
    (h : r.tokens = ts) : (r.readFrom pending ts).2.tokens.length ≤ ts.length - 1 := by
  induction ts generalizing r pending with
  | nil => rw [readFrom]; split <;> simp [finished, h]
  | cons t rest ih =>
    rw [readFrom]
    split
    · simp [after]
    · simp [after]
    · have := ih (r.after t rest) ‹_› rfl
      simp only [List.length_cons]
      omega

-- Reading takes at least one token, if there is one.
theorem length_tokens_read (r : Reader) : r.read.2.tokens.length ≤ r.tokens.length - 1 :=
  length_tokens_readFrom r [] r.tokens rfl

end Reader

/-- What reading a source to its end gives: the values up to the first error, that error if there
is one, and the reader afterwards. -/
structure Reading where
  values : List Value
  error : Option ReadError
  reader : Reader

/-- Reads expressions until no token is ahead. -/
def Reader.readAll (r : Reader) : Reading :=
  match _h : r.tokens, r.error with
  | [], some e => ⟨[], some e, r.finished⟩
  | [], none => ⟨[], none, r⟩
  | _ :: _, _ =>
    match _hread : r.read with
    | (.error e, after) => ⟨[], some e, after⟩
    | (.ok v, after) =>
      let others := after.readAll
      ⟨v :: others.values, others.error, others.reader⟩
termination_by r.tokens.length
decreasing_by
  have := r.length_tokens_read
  simp only [_hread, _h, List.length_cons] at this ⊢
  omega

def readValue (source : String) : Except ReadError Value × Reader := (Reader.ofString source).read

def readValues (source : String) : Reading := (Reader.ofString source).readAll

end MiniLisp
