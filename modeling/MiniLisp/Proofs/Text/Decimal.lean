import MiniLisp.Text.Blank
import MiniLisp.Text.Decimal

/-!
# Decimal numbers read back

An integer written in decimal reads as itself (`intOfDigits_repr`). The digits of other scripts are
never written, but they are read; what is shown of them here is that none is blank.
-/

namespace MiniLisp.Text

theorem isDecimalDigit_of_isDigit {c : Char} (h : c.isDigit) : isDecimalDigit c := by
  rw [isDecimalDigit, decimalDigit?_of_isDigit h]
  rfl

theorem isDecimalDigit_of_mem_toDigits {n : Nat} {c : Char} (h : c ∈ Nat.toDigits 10 n) :
    isDecimalDigit c :=
  isDecimalDigit_of_isDigit (Nat.isDigit_of_mem_toDigits (by decide) (by decide) h)

theorem decimalDigit?_digitChar {n : Nat} (h : n < 10) :
    decimalDigit? (Nat.digitChar n) = some n := by
  revert h; revert n; decide

theorem natOfDigits_concat (cs : List Char) (c : Char) :
    natOfDigits (cs ++ [c]) = 10 * natOfDigits cs + (decimalDigit? c).getD 0 := by
  rw [natOfDigits, List.foldl_append]
  rfl

theorem natOfDigits_toDigits (n : Nat) : natOfDigits (Nat.toDigits 10 n) = n := by
  induction n using Nat.strongRecOn with
  | ind n ih =>
    by_cases h : n < 10
    · rw [Nat.toDigits_of_lt_base h]
      simp [natOfDigits, decimalDigit?_digitChar h]
    · have hr : n % 10 < 10 := Nat.mod_lt _ (by decide)
      rw [Nat.toDigits_eq_if (by decide), if_neg h, natOfDigits_concat, ih (n / 10) (by omega),
        decimalDigit?_digitChar hr, Option.getD_some]
      omega

-- A number without a sign is read by its digits.
theorem intOfDigits_of_isDecimalDigit {c : Char} (h : isDecimalDigit c) (cs : List Char) :
    intOfDigits (c :: cs) = natOfDigits (c :: cs) := by
  unfold intOfDigits
  split
  · rename_i heq; cases heq; exact absurd h (by decide)
  · rename_i heq; cases heq; exact absurd h (by decide)
  · rfl

theorem toList_repr_ofNat (n : Nat) : (Int.ofNat n).repr.toList = Nat.toDigits 10 n := by
  rw [← Nat.toList_repr]
  rfl

theorem toList_repr_negSucc (n : Nat) :
    (Int.negSucc n).repr.toList = '-' :: Nat.toDigits 10 (n + 1) := by
  rw [← Nat.toList_repr, Int.repr]
  simp

-- What is written for an integer reads as that integer.
theorem intOfDigits_repr (n : Int) : intOfDigits n.repr.toList = n := by
  cases n with
  | ofNat n =>
    rw [toList_repr_ofNat]
    cases hds : Nat.toDigits 10 n with
    | nil => exact absurd hds Nat.toDigits_ne_nil
    | cons d ds =>
      have hd : d.isDigit :=
        Nat.isDigit_of_mem_toDigits (b := 10) (n := n) (by decide) (by decide) (by simp [hds])
      rw [intOfDigits_of_isDecimalDigit (isDecimalDigit_of_isDigit hd), ← hds, natOfDigits_toDigits]
      rfl
  | negSucc n =>
    rw [toList_repr_negSucc, intOfDigits, natOfDigits_toDigits]
    rfl

theorem isBlank_eq_false_of_isDecimalDigit {c : Char} (h : isDecimalDigit c) :
    isBlank c = false := by
  have hrows : ∀ z ∈ digitZeros, ∀ k < 10, isBlank (Char.ofNat (z + k)) = false := by
    decide +kernel
  obtain ⟨d, hd⟩ := Option.isSome_iff_exists.1 h
  obtain ⟨z, hz, hc, hlt⟩ := exists_zero_of_decimalDigit? hd
  have hrow := hrows z hz d hlt
  rwa [← hc, Char.ofNat_toNat] at hrow

end MiniLisp.Text
