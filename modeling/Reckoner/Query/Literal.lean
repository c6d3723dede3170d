import Reckoner.Number.Numeral

/-!
# Amounts as they are typed

The amount of a query may be read in several ways: `1,200.5e3x` begins with the amounts `1,200.5e3`,
`1,200.5`, `1,200` and `1`.  All of them are listed, in the order in which they are tried.

* `Split` — a text divided in two.
* `digitRuns`, `commaGroups`, `fraction`, `exponent` — the parts of an amount.
* `amounts` — the amounts at the head of a text: first those with commas between groups of three
  digits, then those with a point, then plain digits; of each form the longest first.
* `amountValue?` — the number that an amount stands for, if it is finite.
-/

namespace Reckoner.Query

open Reckoner.Number Reckoner.Text

/-- A text divided into a part at its head and the rest. -/
abbrev Split := List Char × List Char

/-- Puts text before the first part of a split. -/
def Split.after (head : List Char) (split : Split) : Split := (head ++ split.1, split.2)

/-- Divides the rest of every split further, and takes both parts as the first part. -/
def andThen (splits : List Split) (next : List Char → List Split) : List Split :=
  splits.flatMap fun split => (next split.2).map (Split.after split.1)

/-- The splits of a text, and last the one with nothing before the rest. -/
def optional (splits : List Char → List Split) (s : List Char) : List Split := splits s ++ [([], s)]

/-- The non-empty runs of digits of any script at the head of a text, the longest first. -/
def digitRuns : List Char → List Split
  | [] => []
  | c :: s => if isDigit c then (digitRuns s).map (Split.after [c]) ++ [([c], s)] else []

/-- The runs of groups of a comma and three digits at the head of a text, the longest first. -/
def commaGroups : List Char → List Split
  | ',' :: a :: b :: c :: s =>
    if isDigit a && isDigit b && isDigit c then
      (commaGroups s).map (Split.after [',', a, b, c]) ++ [([',', a, b, c], s)]
    else []
  | _ => []

/-- A point and digits. -/
def fraction : List Char → List Split
  | '.' :: s => (digitRuns s).map (Split.after ['.'])
  | _ => []

/-- A sign at the head of a text, or nothing. -/
def signSplit : List Char → Split
  | [] => ([], [])
  | c :: s => if c = '+' ∨ c = '-' then ([c], s) else ([], c :: s)

/-- A power of ten, with or without a sign. -/
def exponent : List Char → List Split
  | [] => []
  | c :: s =>
    if c = 'e' ∨ c = 'E' then
      let (sign, s) := signSplit s
      (digitRuns s).map (Split.after (c :: sign))
    else []

/-- Up to three digits, groups of three after commas, and perhaps a fraction. -/
def groupedAmounts (s : List Char) : List Split :=
  andThen (andThen ((digitRuns s).filter fun split => split.1.length ≤ 3) commaGroups)
    (optional fraction)

/-- A fraction, with or without digits before it. -/
def pointedAmounts (s : List Char) : List Split := andThen (optional digitRuns s) fraction

/-- The amounts without a sign at the head of a text, in the order in which they are tried. -/
def unsignedAmounts (s : List Char) : List Split :=
  andThen (groupedAmounts s ++ pointedAmounts s ++ digitRuns s) (optional exponent)

/-- The amounts at the head of a text, in the order in which they are tried. -/
def amounts (s : List Char) : List Split :=
  let (sign, s) := signSplit s
  (unsignedAmounts s).map (Split.after sign)

/-- The number that an amount stands for, unless it is too large for a float. -/
def amountValue? (amount : List Char) : Option Float :=
  (readFloat? (amount.filter (· ≠ ','))).filter Float.isFinite

end Reckoner.Query
