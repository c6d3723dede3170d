import Reckoner.Text.Blank
import Reckoner.Text.Digit

/-!
# Reading floats

A numeral is an optional sign, digits of any script with an optional point among, before or after
them, and an optional power of ten; or one of the words for the values that are no numbers.  It is
read as the float nearest to it.

* `takeDigits` — the digits at the head of a text.
* `decimalFloat` — the float nearest to digits with a point and a power of ten.
* `readFloat?` — the float that a text stands for.
-/

namespace Reckoner.Number

open Reckoner.Text

/-- The values of the digits at the head of a text, and what follows them. -/
def takeDigits : List Char → List Nat × List Char
  | [] => ([], [])
  | c :: s =>
    match digit? c with
    | some d => let (ds, rest) := takeDigits s; (d :: ds, rest)
    | none => ([], c :: s)

/-- The number that digits stand for. -/
def digitsValue (ds : List Nat) : Nat := ds.foldl (fun n d => 10 * n + d) 0

/-- The float nearest to `whole.fraction · 10 ^ exponent`. -/
def decimalFloat (whole fraction : List Nat) (exponent : Int) : Float :=
  let power := exponent - fraction.length
  Float.ofScientific (digitsValue (whole ++ fraction)) (power < 0) power.natAbs

/-- A sign at the head of a text, and what follows it. -/
def takeSign : List Char → Bool × List Char
  | '-' :: s => (true, s)
  | '+' :: s => (false, s)
  | s => (false, s)

/-- The power of ten at the end of a numeral, where no text stands for zero. -/
def readExponent? : List Char → Option Int
  | [] => some 0
  | c :: s =>
    if c = 'e' ∨ c = 'E' then
      let (negative, s) := takeSign s
      match takeDigits s with
      | (d :: ds, []) =>
        let n := digitsValue (d :: ds)
        some (if negative then -(n : Int) else n)
      | _ => none
    else none

/-- The fraction of a numeral after its whole part, and what follows it. -/
def takeFraction : List Char → List Nat × List Char
  | '.' :: s => takeDigits s
  | s => ([], s)

/-- The float that an unsigned numeral stands for. -/
def readUnsigned? (s : List Char) : Option Float :=
  let (whole, s) := takeDigits s
  let (fraction, s) := takeFraction s
  if whole.isEmpty && fraction.isEmpty then none
  else (readExponent? s).map (decimalFloat whole fraction)

/-- The text without the underscores that divide its digits.  An underscore elsewhere
    is an error. -/
def dropDividers? (afterDigit : Bool) : List Char → Option (List Char)
  | [] => some []
  | c :: s =>
    if c = '_' then
      if afterDigit && s.head?.any isDigit then dropDividers? false s else none
    else (dropDividers? (isDigit c) s).map (c :: ·)

/-- The value of a word for infinity or for no number, in letters of either case. -/
def readWord? (s : List Char) : Option Float :=
  let word := s.map Char.toLower
  if word = ['i', 'n', 'f'] ∨ word = ['i', 'n', 'f', 'i', 'n', 'i', 't', 'y'] then some (1.0 / 0.0)
  else if word = ['n', 'a', 'n'] then some (0.0 / 0.0)
  else none

/-- The blanks that may stand around a numeral: all but the four information separators. -/
def isMargin (c : Char) : Bool := isBlank c && !(0x1c ≤ c.toNat && c.toNat ≤ 0x1f)

/-- The text without the blanks that may stand around a numeral. -/
def dropMargins (s : List Char) : List Char :=
  ((s.dropWhile isMargin).reverse.dropWhile isMargin).reverse

/-- The float that a text stands for, blanks around it aside. -/
def readFloat? (s : List Char) : Option Float :=
  (dropDividers? false (dropMargins s)).bind fun s =>
    let (negative, s) := takeSign s
    ((readWord? s).or (readUnsigned? s)).map fun x => if negative then -x else x

end Reckoner.Number
