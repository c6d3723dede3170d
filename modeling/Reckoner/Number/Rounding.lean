/-!
# Rounding a quotient

* `roundHalfEven` — the whole number nearest to a quotient.  A half goes to the even neighbour.
-/

namespace Reckoner.Number

/-- The whole number nearest to `n / d`.  A half goes to the even neighbour. -/
def roundHalfEven (n d : Nat) : Nat :=
  if 2 * (n % d) < d ∨ 2 * (n % d) = d ∧ n / d % 2 = 0 then n / d else n / d + 1

end Reckoner.Number
