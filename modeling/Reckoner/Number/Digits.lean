/-!
# Decimal digits of whole numbers

* `natDigits` — the digits of a number, without leading zeros.
* `lastDigits` — a fixed number of digits, the last ones.
* `grouped` — digits in threes, divided by commas.
* `dropTrailingZeros` — digits without the zeros at their end.
-/

namespace Reckoner.Number

/-- The decimal digits of a number, the zero as one digit. -/
def natDigits (n : Nat) : List Char := Nat.toDigits 10 n

/-- The last `width` decimal digits of a number, with leading zeros where it has fewer. -/
def lastDigits : Nat → Nat → List Char
  | 0, _ => []
  | width + 1, n => lastDigits width (n / 10) ++ [Nat.digitChar (n % 10)]

/-- Puts a comma before every digit that begins a group of three, counted from the end. -/
def grouped : List Char → List Char
  | [] => []
  | d :: ds => if ds ≠ [] ∧ ds.length % 3 = 0 then d :: ',' :: grouped ds else d :: grouped ds

/-- The digits up to the last one that is not zero. -/
def dropTrailingZeros (ds : List Char) : List Char := (ds.reverse.dropWhile (· == '0')).reverse

/-- A whole number in grouped digits, with a minus sign if it is negative. -/
def groupedInt (n : Int) : List Char :=
  if n < 0 then '-' :: grouped (natDigits n.natAbs) else grouped (natDigits n.natAbs)

@[simp] theorem grouped_nil : grouped [] = [] := rfl
@[simp] theorem lastDigits_zero (n : Nat) : lastDigits 0 n = [] := rfl

end Reckoner.Number
