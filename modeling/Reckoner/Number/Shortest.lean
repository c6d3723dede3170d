import Reckoner.Number.Display
import Reckoner.Number.Numeral

/-!
# The shortest text of a float

* `shortestDecimal` — the fewest digits that read back as a float; of two such numbers of digits the
  nearer one, and of two equally near ones the even one.
* `plainText` — the text of a float: positional from `10 ^ -4` up to `10 ^ 16`, with a power of ten
  elsewhere, and always with a point or a power of ten.
-/

namespace Reckoner.Number

/-- Whether `digits · 10 ^ power` reads back as the float. -/
def readsBack (x : Float) (digits : Nat) (power : Int) : Bool :=
  Float.ofScientific digits (power < 0) power.natAbs == x

/-- A number of `count` digits and its power of ten that reads back as the positive float `x`, whose
    exact value is `n / d`. -/
def decimalOfLength? (x : Float) (n d count : Nat) : Option (Nat × Int) :=
  let power := decimalExponent n d + 1 - count
  let n := n * Nat.pow 10 (-power).toNat
  let d := d * Nat.pow 10 power.toNat
  let near := roundHalfEven n d
  let other := if near = n / d then near + 1 else n / d
  ([near, other].find? (readsBack x · power)).map fun digits => (digits, power)

/-- The shortest number of digits with its power of ten that reads back as the positive float `x`,
    whose exact value is `n / d`.  Seventeen digits always do. -/
def shortestDecimal (x : Float) (n d : Nat) : Nat × Int :=
  ((List.range' 1 17).findSome? (decimalOfLength? x n d)).getD (0, 0)

/-- A power of ten with its sign and at least two digits. -/
def paddedExponent (e : Int) : List Char :=
  (if e < 0 then '-' else '+') ::
    ((if e.natAbs < 10 then ['0'] else []) ++ natDigits e.natAbs)

/-- Digits whose first one has the power of ten `e`. -/
def placedDigits (ds : List Char) (e : Int) : List Char :=
  if e < -4 ∨ 16 ≤ e then
    ds.take 1 ++ (if ds.length ≤ 1 then [] else '.' :: ds.drop 1) ++ 'e' :: paddedExponent e
  else if e < 0 then '0' :: '.' :: List.replicate (e.natAbs - 1) '0' ++ ds
  else
    let whole := e.toNat + 1
    let fraction := ds.drop whole
    ds.take whole ++ List.replicate (whole - ds.length) '0' ++
      '.' :: (if fraction.isEmpty then ['0'] else fraction)

/-- The text of the magnitude of a finite float. -/
def plainMagnitude (x : Float) (b : Binary) : List Char :=
  if b.mantissa = 0 then ['0', '.', '0']
  else
    let (digits, power) := shortestDecimal x.abs b.numerator b.denominator
    let ds := natDigits digits
    placedDigits (dropTrailingZeros ds) (power + ds.length - 1)

/-- The shortest text that reads back as the float. -/
def plainText (x : Float) : List Char :=
  match Binary.ofFloat? x with
  | some b => if b.negative then '-' :: plainMagnitude x b else plainMagnitude x b
  | none => nonFiniteText x

end Reckoner.Number
