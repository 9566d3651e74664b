/-!
The host: what the language takes from the machine that it runs on.

The host converts decimal digits to integers, and may refuse to convert very many at once. That is a
setting of the host, so everything that reads numbers is told it as an instance of `Host`.

Of all else the host is assumed to have enough. This concerns its stack above all: reading,
rendering and evaluating recurse as deep as their arguments are nested, and nothing but the limit of
a session on the depth of evaluation ends that. Nor is there an end to the numbers that count levels
and positions.
-/

namespace MiniLisp

class Host where
  /-- The most digits that are converted at once, if there is a limit. -/
  digitLimit : Option Nat
  /-- A limit leaves room for far more digits than a number of the language has. -/
  le_digitLimit : ∀ limit ∈ digitLimit, 640 ≤ limit

namespace Host

/-- The host as it is unless it is told otherwise. -/
instance standard : Host where
  digitLimit := some 4300
  le_digitLimit := by simp

variable [Host]

/-- The limit that a number of digits exceeds, if it does. -/
def exceeded? (digits : Nat) : Option Nat := digitLimit.filter (· < digits)

theorem exceeded?_eq_some_iff {digits limit : Nat} :
    exceeded? digits = some limit ↔ digitLimit = some limit ∧ limit < digits := by
  simp [exceeded?, Option.filter_eq_some_iff]

-- As many digits as the numbers of the language have are always converted.
theorem exceeded?_eq_none_of_le {digits : Nat} (h : digits ≤ 640) : exceeded? digits = none := by
  refine Option.filter_eq_none_iff.2 fun limit hlimit hexceeds => ?_
  have hroom := le_digitLimit limit hlimit
  have hlt := of_decide_eq_true hexceeds
  omega

end Host

end MiniLisp
