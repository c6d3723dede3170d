import Reckoner.Number.Rounding

/-!
# Exact values of floating-point numbers

A finite float is a signed whole number times a power of two.  What is shown of a float, and its
remainder after a division, is computed on this exact value.

* `Binary` — `± mantissa · 2 ^ exponent`.
* `Binary.ofFloat?`, `Binary.toFloat` — the exact value of a finite float, and the nearest float.
* `Binary.toRat` — the number as a fraction.
* `Binary.scaled` — the magnitude in units of `10 ^ -places`, rounded to the nearest unit.
* `Binary.nearest` — the nearest whole number.
* `Binary.rem` — the remainder of a division, with the sign of the dividend.
* `Binary.ofRat`, `rounded` — the nearest number that a float holds, if it is not too large for one.
-/

namespace Reckoner.Number

open Float.Model (UnpackedFloat Format)

/-- The number `± mantissa · 2 ^ exponent`. -/
structure Binary where
  negative : Bool
  mantissa : Nat
  exponent : Int
deriving DecidableEq

namespace Binary

/-- The exact value of a float, unless it is infinite or no number.  The zeros keep their sign. -/
def ofFloat? (x : Float) : Option Binary :=
  match x.toModel.unpack with
  | .finite sign mantissa exponent _ => some ⟨sign matches .negative, mantissa, exponent⟩
  | .zero sign => some ⟨sign matches .negative, 0, 0⟩
  | .infinity _ | .notANumber => none

/-- The float nearest to the number, ties to the even mantissa. -/
def toFloat (b : Binary) : Float :=
  .ofModel (.pack (UnpackedFloat.round Format.binary64
    (if b.negative then .negative else .positive) b.mantissa b.exponent))

/-- The numerator of the magnitude over `denominator`. -/
def numerator (b : Binary) : Nat := b.mantissa * Nat.pow 2 b.exponent.toNat

/-- A power of two: the magnitude is `numerator / denominator`. -/
def denominator (b : Binary) : Nat := Nat.pow 2 (-b.exponent).toNat

/-- The number as a fraction. -/
def toRat (b : Binary) : Rat :=
  mkRat (if b.negative then -(b.numerator : Int) else b.numerator) b.denominator

/-- The magnitude in units of `10 ^ -places`, to the nearest unit, a half to the even one. -/
def scaled (b : Binary) (places : Nat) : Nat :=
  roundHalfEven (b.numerator * Nat.pow 10 places) b.denominator

/-- The whole number nearest to the number, a half to the even one. -/
def nearest (b : Binary) : Int :=
  if b.negative then -(b.scaled 0 : Int) else b.scaled 0

/-- What is left of `a` after taking away `b` as often as it fits into the magnitude of `a`.  The
    result has the sign of `a`. -/
def rem (a b : Binary) : Binary :=
  let exponent := min a.exponent b.exponent
  let lift (c : Binary) := c.mantissa * Nat.pow 2 (c.exponent - exponent).toNat
  ⟨a.negative, lift a % lift b, exponent⟩

/-- The place of the first binary digit of the positive quotient `n / d`: the quotient is not below
    two to the power of it, and below two to the next power. -/
def firstPlace (n d : Nat) : Int :=
  let place : Int := n.log2 - d.log2
  -- The quotient of the first digits alone may be too large by one place.
  if d * Nat.pow 2 place.toNat ≤ n * Nat.pow 2 (-place).toNat then place else place - 1

/-- The number nearest to a fraction among those with 53 binary digits, none of them behind the last
    place of a float; a half goes to the even mantissa.  Numbers may be as large as they like. -/
def ofRat (x : Rat) : Binary :=
  let exponent := max (firstPlace x.num.natAbs x.den - 52) (-1074)
  ⟨x < 0, roundHalfEven (x.num.natAbs * Nat.pow 2 (-exponent).toNat)
    (x.den * Nat.pow 2 exponent.toNat), exponent⟩

end Binary

/-- A fraction as floats hold it.  This is what an exact result becomes in the arithmetic of floats,
    as long as it is not too large for them. -/
def rounded (x : Rat) : Rat := (Binary.ofRat x).toRat

end Reckoner.Number
