import Reckoner.Number.Display

/-!
# Numbers in words

* `chunkWords` — a number below one thousand.
* `wholeWords` — a whole number up to the billions: the words of its groups of three digits, each
  with its scale.
* `spelled` — the words of a number, and no words for a float that is not whole.
-/

namespace Reckoner.Number

/-- The words below twenty.  Zero has none, since it is left out after a larger number. -/
def smallWords : List String :=
  ["", "One", "Two", "Three", "Four", "Five", "Six", "Seven", "Eight", "Nine", "Ten", "Eleven",
   "Twelve", "Thirteen", "Fourteen", "Fifteen", "Sixteen", "Seventeen", "Eighteen", "Nineteen"]

/-- The words of the tens. -/
def tensWords : List String :=
  ["", "", "Twenty", "Thirty", "Forty", "Fifty", "Sixty", "Seventy", "Eighty", "Ninety"]

/-- The words of the powers of one thousand. -/
def scaleWords : List String := ["", "Thousand", "Million", "Billion"]

/-- The words of a number below one hundred. -/
def underHundred (n : Nat) : List String :=
  if n = 0 then []
  else if n < 20 then [smallWords.getD n ""]
  else tensWords.getD (n / 10) "" :: (if n % 10 = 0 then [] else [smallWords.getD (n % 10) ""])

/-- The words of a number below one thousand.  Zero has none. -/
def chunkWords (n : Nat) : List String :=
  if n < 100 then underHundred n
  else smallWords.getD (n / 100) "" :: "Hundred" :: underHundred (n % 100)

/-- The words of a group of three digits with its scale. -/
def scaledWords (chunk scale : Nat) : List String :=
  if chunk = 0 then []
  else chunkWords chunk ++ (if scale = 0 then [] else [scaleWords.getD scale ""])

/-- The words of a number of at most `scales` groups of three digits, the lowest of which has the
    scale `scale`. -/
def groupWords : (scales scale n : Nat) → List String
  | 0, _, _ => []
  | scales + 1, scale, n =>
    groupWords scales (scale + 1) (n / 1000) ++ scaledWords (n % 1000) scale

/-- The largest magnitude that is spelled. -/
def wordsLimit : Nat := 999999999999

/-- The words of a whole number, and none beyond the billions. -/
def wholeWords (n : Int) : List String :=
  if n.natAbs > wordsLimit then []
  else if n = 0 then ["Zero"]
  else (if n < 0 then ["Negative"] else []) ++ groupWords 4 0 n.natAbs

/-- Words with single spaces between them. -/
def joinWords (words : List String) : String := " ".intercalate words

/-- The words of the whole number that a float is, and none if it is not whole. -/
def spelledFloat (x : Float) : String :=
  match nearWhole? x with
  | some n => joinWords (wholeWords n)
  | none => ""

/-- The words of a number, and none where it is not whole or too large. -/
def spelled : Quantity → String
  | .whole n => joinWords (wholeWords n)
  | .real x => spelledFloat x

end Reckoner.Number
