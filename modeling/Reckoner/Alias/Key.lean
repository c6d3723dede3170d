import Reckoner.Text.Blank
import Reckoner.Text.Case
import Reckoner.Text.Word

/-!
# Keys of phrases

Phrases that differ only in spelling have one key, by which they are looked up.

* `unitKey` — the key of the name of a unit: lower case, `²` and `^2` as `2`, `per` as `/`, `square`
  as `sq`, `cubic` as `cu`, without the word or sign for degrees, and with single spaces.
* `scaleKey` — the key of the name of a temperature scale, where `deg` is dropped, too.
* `assetKey` — the key of the name of a currency: lower case, without punctuation.
-/

namespace Reckoner.Alias

open Reckoner.Text

/-! ### Single characters -/

/-- The plain form of the micro sign and of the raised digits. -/
def plainChar (c : Char) : Char :=
  if c = '\u03bc' ∨ c = '\u00b5' then 'u' else if c = '²' then '2' else if c = '³' then '3' else c

/-- Brackets, commas and hyphens as spaces. -/
def unitPunctuation (c : Char) : Char := if c ∈ ['(', ')', ',', '-'] then ' ' else c

/-- Brackets, commas, points and hyphens as spaces. -/
def assetPunctuation (c : Char) : Char := if c ∈ ['(', ')', ',', '.', '-'] then ' ' else c

/-! ### Exponents -/

/-- Whether a text begins with `digit` and does not go on with a word character. -/
def startsWithLone (digit : Char) : List Char → Bool
  | [] => false
  | c :: s => c == digit && !s.head?.any isWordChar

/-- Drops every `^` before a lone `digit`. -/
def dropCarets (digit : Char) : List Char → List Char
  | [] => []
  | c :: s =>
    if c = '^' ∧ startsWithLone digit s then dropCarets digit s else c :: dropCarets digit s

/-- Drops the blanks between a letter and a lone `2` or `3`, where `afterLetter` says whether such a
    letter, and blanks, precede the text. -/
def joinExponentsFrom (afterLetter : Bool) : List Char → List Char
  | [] => []
  | c :: s =>
    if isBlank c then
      let next := trimStart s
      if afterLetter && (startsWithLone '2' next || startsWithLone '3' next) then
        joinExponentsFrom afterLetter s
      else c :: joinExponentsFrom afterLetter s
    else c :: joinExponentsFrom c.isLower s

/-- Drops the blanks between a letter from `a` to `z` and a lone `2` or `3`. -/
def joinExponents (s : List Char) : List Char := joinExponentsFrom false s

/-! ### Words and slashes -/

/-- The plain form of the words of a unit. -/
def unitWord (w : List Char) : List Char :=
  if w = "degree".toList ∨ w = "degrees".toList then []
  else if w = "square".toList then "sq".toList
  else if w = "cubic".toList then "cu".toList
  else if w = "per".toList then ['/']
  else w

/-- Nothing for the word `deg`, and every other word as it is. -/
def scaleWord (w : List Char) : List Char := if w = "deg".toList then [] else w

/-- Blanks and slashes. -/
def isSlashOrBlank (c : Char) : Bool := c == '/' || isBlank c

/-- Writes one slash for every run of blanks and slashes that has a slash. -/
def tightenSlashes (s : List Char) : List Char :=
  mapRuns isSlashOrBlank (fun run => if '/' ∈ run then ['/'] else run) s

/-! ### Keys -/

/-- The key of the name of a unit. -/
def unitKey (s : List Char) : List Char :=
  let s := (lower (trim s)).map plainChar
  let s := dropCarets '3' (dropCarets '2' s)
  let s := mapWords unitWord (s.filter (· ≠ '°'))
  let s := (tightenSlashes s).map unitPunctuation
  trim (squeeze (joinExponents s))

/-- The key of the name of a temperature scale. -/
def scaleKey (s : List Char) : List Char := trim (squeeze (mapWords scaleWord (unitKey s)))

/-- The key of the name of a currency or crypto asset. -/
def assetKey (s : List Char) : List Char :=
  trim (squeeze ((lower (trim s)).map assetPunctuation))

end Reckoner.Alias
