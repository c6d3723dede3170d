/-!
# Classes of characters as ranges

* `inRanges` — membership in an ascending list of closed ranges of code points.  The search stops
  at the first range that begins beyond the code point, so small code points are found quickly.
-/

namespace Reckoner.Text

/-- Whether a code point lies in one of the closed ranges, which are in ascending order. -/
def inRanges : List (Nat × Nat) → Nat → Bool
  | [], _ => false
  | (first, last) :: rest, n => if n < first then false else n ≤ last || inRanges rest n

end Reckoner.Text
