import MiniLisp.Proofs.Lexing.Token
import MiniLisp.Proofs.Reader.Grammar

/-!
# A text further on

Positions serve errors only. A text that stands further on in a source has the same tokens further
on (`lexFrom_shift`), and a reader of it gives the same values, and the same errors further on
(`Reader.Shifted.readAll`).
-/

namespace MiniLisp

/-- The same token, so many characters further on. -/
def Token.shift (k : Nat) (t : Token) : Token := { t with start := t.start + k }

/-- The same error, blamed on a character further on. -/
def ReadError.shift (k : Nat) (e : ReadError) : ReadError := { e with position := e.position + k }

def Lexing.shift (k : Nat) (l : Lexing) : Lexing :=
  ⟨l.tokens.map (Token.shift k), l.error.map (ReadError.shift k)⟩

/-! ## Tokens -/

theorem lexFrom_shift (k position : Nat) (cs : List Char) :
    lexFrom (position + k) cs = (lexFrom position cs).shift k := by
  fun_induction lexFrom position cs with
  | case1 position cs hcs =>
    rw [lexFrom_eq, hcs]
    rfl
  | case2 position cs start c rest hcs hfirst =>
    rw [lexFrom_eq, hcs, Nat.add_right_comm]
    simp only [hfirst]
    rfl
  | case3 position cs start c rest hcs l hfirst after ih =>
    rw [lexFrom_eq, hcs, Nat.add_right_comm position k]
    simp only [hfirst]
    rw [Nat.add_right_comm _ k, ih]
    rfl

namespace Text

theorem decode_shift (k position : Nat) (cs : List Char) :
    decode (position + k) cs = (decode position cs).mapError (ReadError.shift k) := by
  fun_induction decode position cs with
  | case1 position =>
    rw [decode]
    rfl
  | case2 position cs d length hread ih =>
    rw [decode_backslash hread, Nat.add_right_comm _ k, Nat.add_right_comm _ k, ih]
    cases decode (position + 1 + length) (cs.drop length) <;> rfl
  | case3 position cs fault hread =>
    rw [decode, if_pos rfl, hread, Nat.add_right_comm]
    rfl
  | case4 position c cs hc ih =>
    rw [decode_cons_of_ne hc, Nat.add_right_comm, ih]
    cases decode (position + 1) cs <;> rfl

end Text

/-! ## Reading -/

def Pending.shift (k : Nat) : Pending → Pending
  | .quote => .quote
  | .list start items => .list (start + k) items

def Progress.shift (k : Nat) : Progress → Progress
  | .complete v => .complete v
  | .waiting pending => .waiting (pending.map (Pending.shift k))

theorem Pending.deliver_shift (k : Nat) (v : Value) (pending : List Pending) :
    deliver v (pending.map (shift k)) = (deliver v pending).shift k := by
  induction pending generalizing v with
  | nil => rfl
  | cons p outer ih =>
    cases p with
    | quote => exact ih (.quoted v)
    | list start items => rfl

namespace Token

variable [Host]

theorem number_shift (k : Nat) (t : Token) :
    (t.shift k).number = t.number.mapError (ReadError.shift k) := by
  have hchars : (t.shift k).chars = t.chars := rfl
  have hstart : (t.shift k).start = t.start + k := rfl
  rw [number, number, hchars, hstart]
  cases Host.exceeded? (Text.digitCount t.chars) with
  | some limit => rfl
  | none =>
    by_cases hrange : Number.InRange (Text.intOfDigits t.chars)
    · simp only [if_pos hrange]
      rfl
    · simp only [if_neg hrange]
      rfl

theorem atom_shift (k : Nat) (t : Token) :
    (t.shift k).atom = t.atom.mapError (ReadError.shift k) := by
  unfold atom shift
  simp only
  split
  · exact t.number_shift k
  · rw [Nat.add_right_comm, Text.decode_shift]
    cases Text.decode (t.start + 1) (t.chars.drop 1).dropLast <;> rfl
  · split
    · rfl
    · split <;> rfl

theorem feed_shift (k : Nat) (t : Token) (pending : List Pending) :
    (t.shift k).feed (pending.map (Pending.shift k)) =
      ((t.feed pending).map (Progress.shift k)).mapError (ReadError.shift k) := by
  obtain ⟨hc, hf⟩ | ⟨hc, hf⟩ | ⟨ha, hf⟩ | ⟨hc, start, items, outer, rfl, hf⟩ | ⟨hc, hp, hf⟩ :=
    t.feed_cases pending <;> rw [hf]
  · exact feed_quote hc
  · exact feed_openParen hc
  · rw [feed_atom (t := t.shift k) ha, atom_shift]
    cases t.atom with
    | error e => rfl
    | ok v => exact congrArg Except.ok (Pending.deliver_shift k v pending)
  · rw [List.map_cons, Pending.shift, feed_closeParen_list (t := t.shift k) hc]
    exact congrArg Except.ok (Pending.deliver_shift k _ outer)
  · refine feed_closeParen_error (t := t.shift k) hc ?_
    rcases pending with _ | ⟨_ | ⟨start, items⟩, outer⟩
    · simp
    · simp [Pending.shift]
    · exact absurd ⟨start, items, outer, rfl⟩ hp

end Token

namespace Reader

/-- The tokens ahead of `r'` are those ahead of `r`, further on, and so is what ended them. -/
structure Shifted (k : Nat) (r r' : Reader) : Prop where
  tokens : r'.tokens = r.tokens.map (Token.shift k)
  error : r'.error = r.error.map (ReadError.shift k)
  length : r'.source.length = r.source.length + k

namespace Shifted

variable {k : Nat} {r r' : Reader}

theorem finished (h : Shifted k r r') : Shifted k r.finished r'.finished :=
  ⟨h.tokens, rfl, h.length⟩

theorem after (h : Shifted k r r') {t : Token} {rest : List Token} :
    Shifted k (r.after t rest) (r'.after (t.shift k) (rest.map (Token.shift k))) :=
  ⟨rfl, h.error, h.length⟩

theorem unexpectedEnd (h : Shifted k r r') : r'.unexpectedEnd = r.unexpectedEnd.shift k := by
  rw [Reader.unexpectedEnd, h.length]
  rfl

theorem endError (h : Shifted k r r') (pending : List Pending) :
    r'.endError (pending.map (Pending.shift k)) = (r.endError pending).shift k := by
  rcases pending with _ | ⟨_ | ⟨start, items⟩, outer⟩
  · exact h.unexpectedEnd
  · exact h.unexpectedEnd
  · rfl

variable [Host]

theorem readFrom (h : Shifted k r r') (pending : List Pending) {ts : List Token}
    (hts : r.tokens = ts) :
    (r'.readFrom (pending.map (Pending.shift k)) (ts.map (Token.shift k))).1 =
        (r.readFrom pending ts).1.mapError (ReadError.shift k) ∧
      Shifted k (r.readFrom pending ts).2
        (r'.readFrom (pending.map (Pending.shift k)) (ts.map (Token.shift k))).2 := by
  induction ts generalizing r r' pending with
  | nil =>
    rw [List.map_nil, Reader.readFrom, Reader.readFrom, h.error]
    cases r.error with
    | none => exact ⟨congrArg Except.error (h.endError pending), h⟩
    | some e => exact ⟨rfl, h.finished⟩
  | cons t rest ih =>
    have hfeed := t.feed_shift k pending
    rw [List.map_cons]
    cases hprogress : t.feed pending with
    | error e =>
      rw [hprogress] at hfeed
      rw [r.readFrom_cons_error hprogress, r'.readFrom_cons_error hfeed]
      exact ⟨rfl, h.after⟩
    | ok progress =>
      rw [hprogress] at hfeed
      rw [r.readFrom_cons_ok hprogress, r'.readFrom_cons_ok hfeed]
      cases progress with
      | complete v => exact ⟨rfl, h.after⟩
      | waiting pending => exact ih h.after pending rfl

theorem read (h : Shifted k r r') : r'.read.1 = r.read.1.mapError (ReadError.shift k) ∧
    Shifted k r.read.2 r'.read.2 := by
  have hread := h.readFrom [] rfl
  rwa [← h.tokens] at hread

/-- A reader of a text further on reads the same values, and fails further on. -/
theorem readAll (h : Shifted k r r') : r'.readAll.values = r.readAll.values ∧
    r'.readAll.error = r.readAll.error.map (ReadError.shift k) := by
  revert r'
  fun_induction Reader.readAll r with
  | case1 r e ht he =>
    intro r' h
    have ht' : r'.tokens = [] := by rw [h.tokens, ht]; rfl
    have he' : r'.error = some (e.shift k) := by rw [h.error, he]; rfl
    rw [readAll_of_error ht' he']
    exact ⟨rfl, rfl⟩
  | case2 r ht he =>
    intro r' h
    have ht' : r'.tokens = [] := by rw [h.tokens, ht]; rfl
    have he' : r'.error = none := by rw [h.error, he]; rfl
    rw [readAll_of_tokens_eq_nil ht' he']
    exact ⟨rfl, rfl⟩
  | case3 r t ts hts e after hread =>
    intro r' h
    have hne : r'.tokens ≠ [] := by rw [h.tokens, hts]; exact List.cons_ne_nil _ _
    have hread' := h.read.1
    rw [hread] at hread'
    rw [readAll_of_read_error hne (Prod.ext hread' rfl)]
    exact ⟨rfl, rfl⟩
  | case4 r t ts hts v after hread others =>
    rename_i ih
    intro r' h
    have hne : r'.tokens ≠ [] := by rw [h.tokens, hts]; exact List.cons_ne_nil _ _
    obtain ⟨hread', hafter⟩ := h.read
    rw [hread] at hread' hafter
    obtain ⟨hvalues, herror⟩ := ih hafter
    rw [readAll_of_read_ok hne (Prod.ext hread' rfl)]
    exact ⟨congrArg (v :: ·) hvalues, herror⟩

end Shifted

end Reader

end MiniLisp
