import Reckoner.Text.Alphanumeric
import Reckoner.Text.Ranges
import Reckoner.Text.Runs

/-!
# Words

A word is a maximal run of letters, digits and underscores.

* `isWordChar` — the characters that words are made of.
* `mapWords` — changes every word of a text and leaves the rest.
-/

namespace Reckoner.Text

/-- A letter or digit of any script, or the underscore. -/
def isWordChar (c : Char) : Bool := c == '_' || inRanges alphanumericRanges c.toNat

/-- Changes every word of a text and leaves the rest. -/
def mapWords (f : List Char → List Char) (s : List Char) : List Char := mapRuns isWordChar f s

end Reckoner.Text
