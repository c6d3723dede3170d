import Reckoner.Text.Ranges
import Reckoner.Text.Runs

/-!
# Blanks

* `isBlank` — the white space of all scripts, with the four information separators and the next-line
  control.
* `trim` — a text without the blanks at its ends.
* `squeeze` — every run of blanks becomes one space.
* `dropBlanks` — a text without any blank.
-/

namespace Reckoner.Text

/-- The code points that count as blank. -/
def blankRanges : List (Nat × Nat) :=
  [(0x09, 0x0d), (0x1c, 0x20), (0x85, 0x85), (0xa0, 0xa0), (0x1680, 0x1680), (0x2000, 0x200a),
   (0x2028, 0x2029), (0x202f, 0x202f), (0x205f, 0x205f), (0x3000, 0x3000)]

/-- White space of any script. -/
def isBlank (c : Char) : Bool := inRanges blankRanges c.toNat

/-- The text from its first character that is not blank. -/
def trimStart (s : List Char) : List Char := s.dropWhile isBlank

/-- The text up to its last character that is not blank. -/
def trimEnd (s : List Char) : List Char := (s.reverse.dropWhile isBlank).reverse

/-- The text without the blanks at either end. -/
def trim (s : List Char) : List Char := trimEnd (trimStart s)

/-- Writes every run of blanks as one space. -/
def squeeze (s : List Char) : List Char := mapRuns isBlank (fun _ => [' ']) s

/-- The text without its blanks. -/
def dropBlanks (s : List Char) : List Char := s.filter fun c => !isBlank c

@[simp] theorem trimStart_nil : trimStart [] = [] := rfl
@[simp] theorem trim_nil : trim [] = [] := rfl
@[simp] theorem squeeze_nil : squeeze [] = [] := rfl

end Reckoner.Text
