import Reckoner.Number.Binary
import Reckoner.Number.Digits

/-!
# Numbers as they are shown

Numbers are shown with a comma between groups of three digits, a point before the decimals, and no
trailing zeros.  How many decimals are shown depends on the magnitude, so that small numbers keep
their leading digits.

* `Quantity` — what can be shown: a whole number of any size, or a float.
* `nearWhole?` — the whole number that a float is up to rounding noise.
* `fixed` — at most a given number of decimals, rounded to nearest from the exact value.
* `scientific` — one digit, a given number of decimals and a power of ten.
* `decimalText` — a float by the decimals that its magnitude asks for.
* `display` — a number, or the reason why it cannot be shown.
-/

namespace Reckoner.Number

/-- What can be shown: a whole number of any size, or a float. -/
inductive Quantity where
  | whole (n : Int)
  | real (x : Float)

/-- Why a number cannot be shown. -/
inductive DisplayError where
  /-- The float is no number. -/
  | notANumber
  /-- The whole number lies beyond the floats. -/
  | tooLarge
deriving DecidableEq

/-- The wording of a display error. -/
def DisplayError.message : DisplayError → String
  | .notANumber => "not enough values to unpack (expected 2, got 1)"
  | .tooLarge => "int too large to convert to float"

/-- The share of a number that counts as rounding noise. -/
def noise : Float := 1e-12

/-- The whole number that a float differs from by rounding noise at most. -/
def nearWhole? (x : Float) : Option Int :=
  (Binary.ofFloat? x).bind fun b =>
    let n := b.nearest
    let w := Float.ofInt n
    if (w - x).abs ≤ (noise * w).abs ∨ (w - x).abs ≤ (noise * x).abs then some n else none

/-- A magnitude of `units · 10 ^ -places` in grouped digits and at most `places` decimals. -/
def fixedText (places units : Nat) : List Char :=
  let whole := grouped (natDigits (units / Nat.pow 10 places))
  match dropTrailingZeros (lastDigits places units) with
  | [] => whole
  | decimals => whole ++ '.' :: decimals

/-- A number rounded to at most `places` decimals.  Nothing is left of the sign of a number that is
    rounded to zero. -/
def fixed (places : Nat) (b : Binary) : List Char :=
  let text := fixedText places (b.scaled places)
  if b.negative ∧ text ≠ ['0'] then '-' :: text else text

/-- The power of ten of the first digit of `n / d`, which must not be zero. -/
def decimalExponent (n d : Nat) : Int :=
  let k : Int := (natDigits n).length - (natDigits d).length
  if d * Nat.pow 10 k.toNat ≤ n * Nat.pow 10 (-k).toNat then k else k - 1

/-- The digits of `n / d` rounded to `places` decimals after the first digit, as one number, and the
    power of ten of its first digit. -/
def scientificParts (places n d : Nat) : Nat × Int :=
  let e := decimalExponent n d
  let shift := (places : Int) - e
  let digits := roundHalfEven (n * Nat.pow 10 shift.toNat) (d * Nat.pow 10 (-shift).toNat)
  if digits < Nat.pow 10 (places + 1) then (digits, e) else (digits / 10, e + 1)

/-- A power of ten with its sign. -/
def exponentText (e : Int) : List Char :=
  (if e < 0 then '-' else '+') :: natDigits e.natAbs

/-- A number that is not zero, in one digit, `places` decimals and a power of ten. -/
def scientific (places : Nat) (b : Binary) : List Char :=
  let (digits, e) := scientificParts places b.numerator b.denominator
  let text := natDigits (digits / Nat.pow 10 places) ++ '.' :: lastDigits places digits ++
    'e' :: exponentText e
  if b.negative then '-' :: text else text

/-- The text of a float that has no exact value. -/
def nonFiniteText (x : Float) : List Char :=
  if x.isNaN then ['n', 'a', 'n'] else if x < 0 then ['-', 'i', 'n', 'f'] else ['i', 'n', 'f']

/-- A float with at most `places` decimals. -/
def fixedFloat (places : Nat) (x : Float) : List Char :=
  match Binary.ofFloat? x with
  | some b => fixed places b
  | none => nonFiniteText x

/-- A float with `places` decimals and a power of ten. -/
def scientificFloat (places : Nat) (x : Float) : List Char :=
  match Binary.ofFloat? x with
  | some b => scientific places b
  | none => nonFiniteText x

/-- A float by the decimals that its magnitude asks for. -/
def decimalText (x : Float) : List Char :=
  if x.abs ≥ 1000 then fixedFloat 2 x
  else if x.abs ≥ 1 then fixedFloat 6 x
  else if x.abs ≥ 0.001 then fixedFloat 8 x
  else scientificFloat 4 x

/-- The magnitude from which whole numbers, too, are shown as other floats are. -/
def wholeLimit : Nat := 1000000000000000

/-- A float as it is shown: as a whole number where it is one up to noise and not too large. -/
def floatText (x : Float) : List Char :=
  match nearWhole? x with
  | some n => if x.abs < 1e15 then groupedInt n else decimalText x
  | none => decimalText x

/-- The text of a float in a result. -/
def showFloat (x : Float) : String := String.ofList (floatText x)

/-- A number as it is shown. -/
def display : Quantity → Except DisplayError String
  | .real x => if x.isNaN then .error .notANumber else .ok (showFloat x)
  | .whole n =>
    if (Float.ofInt n).isInf then .error .tooLarge
    else if n.natAbs < wholeLimit then .ok (String.ofList (groupedInt n))
    else .ok (String.ofList (decimalText (Float.ofInt n)))

end Reckoner.Number
