import Reckoner.Number.Binary

/-!
# The arithmetic operators

* `Operator` — the six binary operators.
* `ArithmeticError` — why an operation has no result.
* `Operator.apply` — the result of an operation on floats.  Sums, differences and products always
  have one; a quotient by zero, a remainder that is not defined and a power that is not real or too
  large have none.
-/

namespace Reckoner.Arithmetic

open Reckoner.Number

/-- The binary operators. -/
inductive Operator where
  | add | sub | mul | div | rem | pow
deriving DecidableEq

/-- Why an operation has no result. -/
inductive ArithmeticError where
  /-- A quotient by zero. -/
  | divisionByZero
  /-- The operation is not defined for these numbers. -/
  | outsideDomain
  /-- The result is too large. -/
  | outsideRange
deriving DecidableEq

/-- The wording of an arithmetic error. -/
def ArithmeticError.message : ArithmeticError → String
  | .divisionByZero => "float division by zero"
  | .outsideDomain => "math domain error"
  | .outsideRange => "math range error"

/-- The quotient of two floats. -/
def divide (x y : Float) : Except ArithmeticError Float :=
  if y == 0 then .error .divisionByZero else .ok (x / y)

/-- The remainder of a division, with the sign of the dividend.  A finite dividend is its own
    remainder under an infinite divisor. -/
def remainder (x y : Float) : Except ArithmeticError Float :=
  match Binary.ofFloat? x, Binary.ofFloat? y with
  | some a, some b => if b.mantissa = 0 then .error .outsideDomain else .ok (a.rem b).toFloat
  | some _, none => .ok (if y.isNaN then y else x)
  | none, _ =>
    if x.isNaN then .ok x else if y.isNaN then .ok y else .error .outsideDomain

/-- Whether a float is an odd whole number. -/
def isOddWhole (y : Float) : Bool :=
  match Binary.ofFloat? y with
  | some b => b.denominator ∣ b.numerator ∧ b.numerator / b.denominator % 2 = 1
  | none => false

/-- A power with an infinite base. -/
def infinitePower (x y : Float) : Float :=
  if y > 0 then (if isOddWhole y then x else x.abs)
  else if y == 0 then 1
  else if isOddWhole y && x < 0 then -0.0
  else 0

/-- A power of a finite base with an infinite exponent. -/
def powerToInfinity (x y : Float) : Float :=
  if x.abs == 1 then 1
  else if y > 0 && x.abs > 1 then y
  else if y < 0 && x.abs < 1 then -y
  else 0

/-- The power of two floats. -/
def power (x y : Float) : Except ArithmeticError Float :=
  if x.isNaN then .ok (if y == 0 then 1 else x)
  else if y.isNaN then .ok (if x == 1 then 1 else y)
  else if x.isInf then .ok (infinitePower x y)
  else if y.isInf then .ok (powerToInfinity x y)
  else
    let z := x.pow y
    if z.isNaN then .error .outsideDomain
    else if z.isInf then .error (if x == 0 then .outsideDomain else .outsideRange)
    else .ok z

/-- The result of an operation. -/
def Operator.apply : Operator → Float → Float → Except ArithmeticError Float
  | .add, x, y => .ok (x + y)
  | .sub, x, y => .ok (x - y)
  | .mul, x, y => .ok (x * y)
  | .div, x, y => divide x y
  | .rem, x, y => remainder x y
  | .pow, x, y => power x y

/-- The operators of the loosest level. -/
def Operator.isAdditive : Operator → Bool
  | .add | .sub => true
  | _ => false

/-- The operators of the middle level. -/
def Operator.isMultiplicative : Operator → Bool
  | .mul | .div | .rem => true
  | _ => false

/-- The operator of the tightest level. -/
def Operator.isPower : Operator → Bool
  | .pow => true
  | _ => false

end Reckoner.Arithmetic
