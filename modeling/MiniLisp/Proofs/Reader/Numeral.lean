import Mathlib.Data.List.Induction
import Mathlib.Data.Nat.Digits.Defs
import MiniLisp.Proofs.Lexing.Tiling
import MiniLisp.Proofs.Reader.Position

/-!
# Numerals

A numeral is a row of decimal digits, of any scripts and of any length, with or without a sign
before them. Its value is told by the places of its digits alone. Wherever a token starts with a
numeral that no digit follows, the token is the numeral, and if the host converts so many digits, it
is read as this value or refused for being out of range (`numeral_reads_exactly`).
-/

namespace MiniLisp

/-! ## Values by places -/

/-- A decimal digit, of any script. -/
structure Digit where
  char : Char
  isDecimalDigit : Text.isDecimalDigit char

def Digit.value (d : Digit) : Nat := (Text.decimalDigit? d.char).get d.isDecimalDigit

/-- What stands before the digits of a numeral. -/
inductive Sign where
  | absent
  | plus
  | minus
deriving DecidableEq

def Sign.chars : Sign → List Char
  | .absent => []
  | .plus => ['+']
  | .minus => ['-']

/-- An integer as it may be written in source, with its digits from the most significant on. -/
structure Numeral where
  sign : Sign
  digits : List Digit
  digits_ne_nil : digits ≠ []

theorem Digit.decimalDigit?_char (d : Digit) : Text.decimalDigit? d.char = some d.value :=
  (Option.some_get d.isDecimalDigit).symm

theorem Text.natOfDigits_map_char (ds : List Digit) :
    natOfDigits (ds.map Digit.char) = Nat.ofDigits 10 (ds.map Digit.value).reverse := by
  induction ds using List.reverseRecOn with
  | nil => rfl
  | append_singleton ds d ih =>
    rw [List.map_append, List.map_singleton, natOfDigits_concat, ih, d.decimalDigit?_char,
      Option.getD_some, List.map_append, List.map_singleton, List.reverse_concat,
      Nat.ofDigits_cons, Nat.add_comm]

namespace Numeral

def chars (m : Numeral) : List Char := m.sign.chars ++ m.digits.map Digit.char

/-- What the digits are worth in their places. -/
def magnitude (m : Numeral) : Nat := Nat.ofDigits 10 (m.digits.map Digit.value).reverse

def value (m : Numeral) : Int :=
  match m.sign with
  | .absent | .plus => m.magnitude
  | .minus => -m.magnitude

def withSign (m : Numeral) (s : Sign) : Numeral := { m with sign := s }

/-- The numeral with more digits before its own. -/
def padded (m : Numeral) (ds : List Digit) : Numeral where
  sign := m.sign
  digits := ds ++ m.digits
  digits_ne_nil := List.append_ne_nil_of_right_ne_nil ds m.digits_ne_nil

theorem value_withSign_plus {m : Numeral} (h : m.sign = .absent) :
    (m.withSign .plus).value = m.value := by
  rw [value, value, h]
  rfl

-- Zeros count for nothing before other digits.
theorem value_padded (m : Numeral) {zeros : List Digit} (h : ∀ z ∈ zeros, z.value = 0) :
    (m.padded zeros).value = m.value := by
  have hzeros : zeros.map Digit.value = List.replicate zeros.length 0 :=
    List.eq_replicate_iff.2 ⟨List.length_map _, List.forall_mem_map.2 h⟩
  have hmagnitude : (m.padded zeros).magnitude = m.magnitude := by
    rw [magnitude, padded, List.map_append, List.reverse_append, hzeros, List.reverse_replicate,
      Nat.ofDigits_append_replicate_zero]
    rfl
  rw [value, value, hmagnitude]
  rfl

/-! ## Numerals as lexemes -/

theorem isNumeral_chars (m : Numeral) : IsNumeral m.chars := by
  obtain ⟨sign, digits, hne⟩ := m
  have hall : ∀ c ∈ digits.map Digit.char, Text.isDecimalDigit c :=
    List.forall_mem_map.2 fun d _ => d.isDecimalDigit
  have hchars : digits.map Digit.char ≠ [] := mt List.map_eq_nil_iff.1 hne
  cases sign with
  | absent =>
    obtain ⟨c, ds, hds⟩ := List.exists_cons_of_ne_nil hchars
    rw [hds, List.forall_mem_cons] at hall
    exact ⟨c, ds, hds, .inl hall.1, hall.2⟩
  | plus => exact ⟨'+', _, rfl, .inr ⟨rfl, hchars⟩, hall⟩
  | minus => exact ⟨'-', _, rfl, .inr ⟨rfl, hchars⟩, hall⟩

theorem chars_ne_nil (m : Numeral) : m.chars ≠ [] := by
  obtain ⟨c, ds, hchars, -⟩ := m.isNumeral_chars
  rw [hchars]
  exact List.cons_ne_nil c ds

def lexeme (m : Numeral) : Lexeme := ⟨.number, m.chars, m.chars_ne_nil⟩

@[simp]
theorem chars_lexeme (m : Numeral) : m.lexeme.chars = m.chars := rfl

/-- A text that starts with a numeral and goes on with no digit has the whole numeral as its first
lexeme. -/
theorem first?_append (m : Numeral) {rest : List Char}
    (hrest : ∀ c ∈ rest.head?, Text.isDecimalDigit c = false) :
    Lexeme.first? (m.chars ++ rest) = some m.lexeme := by
  obtain ⟨c, ds, hchars, hc, hds⟩ := m.isNumeral_chars
  have hrun : (ds ++ rest).takeWhile Text.isDecimalDigit = ds := by
    rw [List.takeWhile_append_of_pos hds, takeWhile_eq_nil_iff_head?.2 hrest, List.append_nil]
  have hstart := Lexeme.startsNumber_of_numeral hc hds rest
  rw [hchars, List.cons_append, Lexeme.first?_of_startsNumber hstart]
  refine congrArg some (Lexeme.ext rfl ?_)
  calc c :: (ds ++ rest).takeWhile Text.isDecimalDigit = c :: ds := by rw [hrun]
    _ = m.chars := hchars.symm

theorem intOfDigits_chars (m : Numeral) : Text.intOfDigits m.chars = m.value := by
  obtain ⟨sign, digits, hne⟩ := m
  have hdigits := Text.natOfDigits_map_char digits
  cases sign with
  | absent =>
    obtain ⟨d, ds, rfl⟩ := List.exists_cons_of_ne_nil hne
    have hsigned := Text.intOfDigits_of_isDecimalDigit d.isDecimalDigit (ds.map Digit.char)
    rw [← List.map_cons, hdigits] at hsigned
    exact hsigned
  | plus => exact congrArg Int.ofNat hdigits
  | minus => exact congrArg (fun n : Nat => -(n : Int)) hdigits

theorem digitCount_chars (m : Numeral) : Text.digitCount m.chars = m.digits.length := by
  have hsign : m.sign.chars.countP Text.isDecimalDigit = 0 := by
    cases m.sign <;> decide
  have hdigits : (m.digits.map Digit.char).countP Text.isDecimalDigit = m.digits.length := by
    rw [List.countP_eq_length.2 (List.forall_mem_map.2 fun d _ => d.isDecimalDigit),
      List.length_map]
  rw [Text.digitCount, chars, List.countP_append, hsign, hdigits, Nat.zero_add]

/-! ## Reading -/

theorem inRange_iff {n : Int} : Number.InRange n ↔ -2 ^ 63 ≤ n ∧ n ≤ 2 ^ 63 - 1 := Iff.rfl

/-- What a numeral at a place is read as, if the host converts it. -/
def outcome (m : Numeral) (start : Nat) : Except ReadError Value :=
  if -2 ^ 63 ≤ m.value ∧ m.value ≤ 2 ^ 63 - 1 then .ok (.number m.value)
  else .error ⟨.numberOutOfRange, start⟩

theorem outcome_congr {m m' : Numeral} (h : m.value = m'.value) (start : Nat) :
    m.outcome start = m'.outcome start := by
  rw [outcome, outcome, h]

theorem eq_of_outcome_error {m : Numeral} {start : Nat} {e : ReadError}
    (h : m.outcome start = .error e) : e = ⟨.numberOutOfRange, start⟩ := by
  rw [outcome] at h
  split at h <;> cases h
  rfl

-- Of the numerals of this magnitude, only the negative one is in range.
theorem exists_outcome_ok_iff {m : Numeral} (h : m.magnitude = 2 ^ 63) (start : Nat) :
    (∃ v, m.outcome start = .ok v) ↔ m.sign = .minus := by
  obtain ⟨sign, digits, hne⟩ := m
  cases sign <;> simp [outcome, value, h]

section

variable [Host]

/-- The host converts as many digits as the numeral has. -/
def Converts (m : Numeral) : Prop := Host.exceeded? m.digits.length = none

instance (m : Numeral) : Decidable m.Converts := inferInstanceAs (Decidable (_ = none))

theorem atom_eq {m : Numeral} (h : m.Converts) (start : Nat) :
    Token.atom ⟨m.lexeme, start⟩ = m.outcome start := by
  have hhost : Host.exceeded? (Text.digitCount m.lexeme.chars) = none := by
    rw [chars_lexeme, digitCount_chars]
    exact h
  simp only [Token.atom, lexeme, Token.number] at hhost ⊢
  simp only [hhost, m.intOfDigits_chars, inRange_iff, outcome]

-- A numeral with too many digits has no value, whatever its digits are.
theorem atom_of_exceeded {m : Numeral} {limit : Nat}
    (h : Host.exceeded? m.digits.length = some limit) (start : Nat) :
    Token.atom ⟨m.lexeme, start⟩ = .error ⟨.tooManyDigits m.digits.length limit, start⟩ := by
  rw [← m.digitCount_chars] at h ⊢
  exact Token.number_eq_error_iff.2 (.inl ⟨limit, h, rfl⟩)

theorem feed_eq {m : Numeral} (h : m.Converts) (start : Nat) (pending : List Pending) :
    Token.feed ⟨m.lexeme, start⟩ pending =
      (m.outcome start).map fun v => Pending.deliver v pending := by
  rw [Token.feed_atom rfl, atom_eq h]

theorem read_eq (m : Numeral) {r : Reader} {start : Nat} {ts : List Token}
    (h : r.tokens = ⟨m.lexeme, start⟩ :: ts) :
    r.read = (Token.atom ⟨m.lexeme, start⟩, r.after ⟨m.lexeme, start⟩ ts) := by
  rw [Reader.read, h, Reader.readFrom, Token.feed_atom rfl]
  cases Token.atom ⟨m.lexeme, start⟩ <;> rfl

end

/-- A source of spacing, the numeral and a rest. -/
def between (m : Numeral) (spacing rest : List Char) : String :=
  String.ofList (spacing ++ (m.chars ++ rest))

theorem drop_between (m : Numeral) (spacing rest : List Char) :
    (m.between spacing rest).toList.drop (spacing.length + m.chars.length) = rest := by
  rw [between, String.toList_ofList, ← List.append_assoc, ← List.length_append, List.drop_left]

section

variable (m : Numeral) {spacing rest : List Char} (hspacing : Spacing spacing)
  (hrest : ∀ c ∈ rest.head?, Text.isDecimalDigit c = false)
include hspacing hrest

theorem lex_between : lex (m.between spacing rest).toList 0 =
    (lex (m.between spacing rest).toList (spacing.length + m.chars.length)).prepend
      [⟨m.lexeme, spacing.length⟩] := by
  rw [lex, lex, m.drop_between, List.drop_zero, between, String.toList_ofList,
    lexFrom_gap_append hspacing.gapAfter_eq, Nat.zero_add,
    lexFrom_of_first? (m.first?_append hrest), chars_lexeme, List.drop_left]

variable [Host]

theorem readValue_between : readValue (m.between spacing rest) =
    (Token.atom ⟨m.lexeme, spacing.length⟩, (Reader.ofString (m.between spacing rest)).after
      ⟨m.lexeme, spacing.length⟩
      (lex (m.between spacing rest).toList (spacing.length + m.chars.length)).tokens) :=
  m.read_eq (congrArg Lexing.tokens (m.lex_between hspacing hrest))

theorem rest_between : (readValue (m.between spacing rest)).2.rest =
    String.ofList (rest.drop (gapLength false rest)) := by
  have hafter : (readValue (m.between spacing rest)).2.source.drop
      (readValue (m.between spacing rest)).2.position = rest := by
    rw [m.readValue_between hspacing hrest]
    exact m.drop_between spacing rest
  rw [Reader.rest, drop_skipGap, hafter]

end

/-- Nothing is read in a source that is a numeral with more digits than the host converts. -/
theorem readAll_of_exceeded [Host] {m : Numeral} {limit : Nat}
    (h : Host.exceeded? m.digits.length = some limit) :
    (readValue (String.ofList m.chars)).1 = .error ⟨.tooManyDigits m.digits.length limit, 0⟩ ∧
      (readValues (String.ofList m.chars)).values = [] ∧
      (readValues (String.ofList m.chars)).error =
        some ⟨.tooManyDigits m.digits.length limit, 0⟩ := by
  have hsource : m.between [] [] = String.ofList m.chars :=
    congrArg String.ofList (List.append_nil m.chars)
  have hnone : ∀ c ∈ ([] : List Char).head?, Text.isDecimalDigit c = false := nofun
  have hlex := m.lex_between .nil hnone
  have hread := m.readValue_between .nil hnone
  rw [atom_of_exceeded h] at hread
  rw [hsource] at hlex hread
  have hne : (Reader.ofString (String.ofList m.chars)).tokens ≠ [] := by
    rw [Reader.ofString, Reader.ofSource, hlex]
    exact List.cons_ne_nil _ _
  rw [readValues, Reader.readAll_of_read_error hne hread, hread]
  exact ⟨rfl, rfl, rfl⟩

-- So it is with one digit over and over.
theorem readAll_replicate [Host] {c : Char} (hc : Text.isDecimalDigit c) {n limit : Nat}
    (h : Host.exceeded? n = some limit) :
    (readValue (String.ofList (List.replicate n c))).1 = .error ⟨.tooManyDigits n limit, 0⟩ ∧
      (readValues (String.ofList (List.replicate n c))).values = [] ∧
      (readValues (String.ofList (List.replicate n c))).error =
        some ⟨.tooManyDigits n limit, 0⟩ := by
  obtain ⟨-, hn⟩ := Host.exceeded?_eq_some_iff.1 h
  have hlength : (List.replicate n (Digit.mk c hc)).length = n := List.length_replicate
  let m : Numeral := ⟨.absent, List.replicate n ⟨c, hc⟩, List.ne_nil_of_length_pos (by omega)⟩
  have hchars : m.chars = List.replicate n c := List.map_replicate
  have hexceeded : Host.exceeded? m.digits.length = some limit := by rwa [hlength]
  have hread := readAll_of_exceeded hexceeded
  rwa [hchars, hlength] at hread

end Numeral

/-- A digit counts for its place after the zero of its script. Wherever a token starts with a
numeral that no digit follows, the token is the numeral, and it is read as its value if that is a
signed number of 64 bits, and refused at its first character if not. So is a source that starts with
the numeral after spacing. Neither zeros before the digits nor a plus sign make a difference. All
this is on the assumption that the host converts the digits, as one without a limit does for all
numerals. -/
theorem numeral_reads_exactly [Host] (m : Numeral) (hhost : m.Converts) {rest : List Char}
    (hrest : ∀ c ∈ rest.head?, Text.isDecimalDigit c = false) :
    (∀ d ∈ m.digits, ∃ z ∈ Text.digitZeros, d.char.toNat = z + d.value ∧ d.value < 10) ∧
    (∀ source position, ∀ t ∈ (lex source position).tokens,
      source.drop t.start = m.chars ++ rest → t.toLexeme = m.lexeme ∧
        ∀ pending, t.feed pending = (m.outcome t.start).map fun v => Pending.deliver v pending) ∧
    ∀ spacing, Spacing spacing →
      lex (m.between spacing rest).toList 0 =
        (lex (m.between spacing rest).toList (spacing.length + m.chars.length)).prepend
          [⟨m.lexeme, spacing.length⟩] ∧
      (readValue (m.between spacing rest)).1 = m.outcome spacing.length ∧
      (readValue (m.between spacing rest)).2.rest =
        String.ofList (rest.drop (gapLength false rest)) ∧
      (∀ e, (readValue (m.between spacing rest)).1 = .error e →
        e.fault.message = "Integer literal out of range" ∧ e.position = spacing.length) ∧
      (∀ zeros : List Digit, (∀ z ∈ zeros, z.value = 0) → (m.padded zeros).Converts →
        (readValue ((m.padded zeros).between spacing rest)).1 =
          (readValue (m.between spacing rest)).1) ∧
      (m.sign = .absent → (readValue ((m.withSign .plus).between spacing rest)).1 =
        (readValue (m.between spacing rest)).1) ∧
      (m.magnitude = 2 ^ 63 →
        ((∃ v, (readValue (m.between spacing rest)).1 = .ok v) ↔ m.sign = .minus)) := by
  have hread : ∀ {m : Numeral}, m.Converts → ∀ {spacing : List Char}, Spacing spacing →
      (readValue (m.between spacing rest)).1 = m.outcome spacing.length := by
    intro m hhost spacing hspacing
    rw [m.readValue_between hspacing hrest, Numeral.atom_eq hhost]
  refine ⟨fun d _ => Text.exists_zero_of_decimalDigit? d.decimalDigit?_char,
    fun source position t ht hdrop => ?_, fun spacing hspacing => ⟨?_, ?_, ?_, ?_, ?_, ?_, ?_⟩⟩
  · have hfirst := first?_of_mem_lex rfl t ht
    rw [hdrop, m.first?_append hrest] at hfirst
    have hlexeme := (Option.some.inj hfirst).symm
    refine ⟨hlexeme, fun pending => ?_⟩
    rw [← Numeral.feed_eq hhost, ← hlexeme]
  · exact m.lex_between hspacing hrest
  · exact hread hhost hspacing
  · exact m.rest_between hspacing hrest
  · intro e he
    rw [hread hhost hspacing] at he
    rw [Numeral.eq_of_outcome_error he]
    exact ⟨rfl, rfl⟩
  · intro zeros hzeros hpadded
    rw [hread hpadded hspacing, hread hhost hspacing]
    exact Numeral.outcome_congr (m.value_padded hzeros) _
  · intro hsign
    have hplus : (m.withSign .plus).Converts := hhost
    rw [hread hplus hspacing, hread hhost hspacing]
    exact Numeral.outcome_congr (Numeral.value_withSign_plus hsign) _
  · intro hmagnitude
    rw [hread hhost hspacing]
    exact Numeral.exists_outcome_ok_iff hmagnitude _

/-- The digits of these sources are of four scripts. The least number is read, also with zeros
before its digits and inside a list. Without its sign, or with the other one, it is refused. -/
theorem numeral_reads_exactly_least :
    (readValue " ;low\n-\u096f\uff1223372036854775808)").1 = .ok (.number (-2 ^ 63)) ∧
      (readValue " ;low\n-\u096f\uff1223372036854775808)").2.rest = ")" ∧
      (readValue " ;low\n-\u0660\u07c0\u096f\uff1223372036854775808)").1 =
        .ok (.number (-2 ^ 63)) ∧
      (∃ e, (readValue " ;low\n\u096f\uff1223372036854775808)").1 = .error e ∧
        e.fault.message = "Integer literal out of range" ∧ e.position = 6) ∧
      (readValue " ;low\n+\u096f\uff1223372036854775808)").1 =
        (readValue " ;low\n\u096f\uff1223372036854775808)").1 ∧
      ∃ t ∈ (lex "(1 -\u096f\uff1223372036854775808)".toList 0).tokens, t.start = 3 ∧
        t.text = "-\u096f\uff1223372036854775808" ∧
        t.feed [.quote] = .ok (.complete (.quoted (.number (-2 ^ 63)))) := by
  let digits : List Digit := "\u096f\uff1223372036854775808".toList.pmap Digit.mk
    (List.all_eq_true.1 (by decide +kernel))
  let zeros : List Digit := "\u0660\u07c0".toList.pmap Digit.mk
    (List.all_eq_true.1 (by decide +kernel))
  let m : Numeral := ⟨.minus, digits, by decide⟩
  have hmagnitude : m.magnitude = 2 ^ 63 := by decide +kernel
  have hspacing : Spacing " ;low\n".toList :=
    .blank (by decide) (.comment (show '\n' ∉ ['l', 'o', 'w'] by decide) .nil)
  have hrest : ∀ c ∈ [')'].head?, Text.isDecimalDigit c = false := by
    intro c hc
    cases hc
    decide
  have hvalue : m.value = -2 ^ 63 := congrArg (fun n : Nat => -(n : Int)) hmagnitude
  have houtcome (start : Nat) : m.outcome start = .ok (.number (-2 ^ 63)) := by
    rw [Numeral.outcome, hvalue, if_pos (by decide)]
  have hnegative : m.between " ;low\n".toList [')'] = " ;low\n-\u096f\uff1223372036854775808)" := by
    decide +kernel
  have hlong : (m.padded zeros).between " ;low\n".toList [')'] =
      " ;low\n-\u0660\u07c0\u096f\uff1223372036854775808)" := by decide +kernel
  have hunsigned : (m.withSign .absent).between " ;low\n".toList [')'] =
      " ;low\n\u096f\uff1223372036854775808)" := by decide +kernel
  have hpositive : ((m.withSign .absent).withSign .plus).between " ;low\n".toList [')'] =
      " ;low\n+\u096f\uff1223372036854775808)" := by decide +kernel
  obtain ⟨-, htoken, hsource⟩ := numeral_reads_exactly m (by decide) hrest
  obtain ⟨-, hread, hleft, -, hpadded, -⟩ := hsource _ hspacing
  obtain ⟨-, -, -, herror, -, hplus, hboundary⟩ :=
    (numeral_reads_exactly (m.withSign .absent) (by decide) hrest).2.2 _ hspacing
  have hzeros := hpadded zeros (by decide +kernel) (by decide)
  rw [houtcome, hnegative] at hread
  rw [hnegative] at hleft
  rw [hlong, hnegative, hread] at hzeros
  rw [hunsigned] at herror hboundary
  rw [hpositive, hunsigned] at hplus
  refine ⟨hread, hleft, hzeros, ?_, hplus rfl, ?_⟩
  · -- What is not read is refused.
    cases hresult : (readValue " ;low\n\u096f\uff1223372036854775808)").1 with
    | error e => exact ⟨e, rfl, herror e hresult⟩
    | ok v => exact absurd ((hboundary hmagnitude).1 ⟨v, hresult⟩) (by decide)
  · obtain ⟨t, ht, hstart⟩ : ∃ t ∈ (lex "(1 -\u096f\uff1223372036854775808)".toList 0).tokens,
        t.start = 3 := by decide +kernel
    have hdrop : "(1 -\u096f\uff1223372036854775808)".toList.drop t.start = m.chars ++ [')'] := by
      rw [hstart]
      decide +kernel
    obtain ⟨hlexeme, hfeed⟩ := htoken _ _ t ht hdrop
    refine ⟨t, ht, hstart, ?_, ?_⟩
    · rw [Token.text, hlexeme]
      decide +kernel
    · rw [hfeed, houtcome]
      rfl

end MiniLisp
