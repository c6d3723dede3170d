import Reckoner.Text.CaseContext
import Reckoner.Text.CaseRuns
import Reckoner.Text.Ranges

/-!
# Lower and upper case

* `lowerChar`, `upperChar` — the mapping of one character to one character.
* `lower` — the lower case of a text.  Two characters need more than `lowerChar`: the dotted capital
  I becomes two characters, and a capital sigma takes its final form at the end of a word.
* `upper` — the upper case of a text, where some characters become two or three.
-/

namespace Reckoner.Text

/-- The image of a code point under the first run that holds it.  The runs are
    in ascending order. -/
def imageIn? : List CaseRun → Nat → Option Nat
  | [], _ => none
  | r :: rs, n => if n < r.first then none else (r.image? n).orElse fun _ => imageIn? rs n

/-- The lower-case form of a character that has one of one character. -/
def lowerChar (c : Char) : Char := ((imageIn? lowerRuns c.toNat).map Char.ofNat).getD c

/-- The upper-case form of a character that has one of one character. -/
def upperChar (c : Char) : Char := ((imageIn? upperRuns c.toNat).map Char.ofNat).getD c

/-- A character that the rule for a final sigma passes over. -/
def isCaseIgnorable (c : Char) : Bool := inRanges caseIgnorableRanges c.toNat

/-- A character with a case that is not passed over. -/
def isCased (c : Char) : Bool := inRanges casedRanges c.toNat

/-- Whether the next character that is not passed over has a case. -/
def casedFollows (s : List Char) : Bool := (s.dropWhile isCaseIgnorable).head?.any isCased

/-- The lower case of a text whose last character before it, those passed over aside, has a case
    or has none. -/
def lowerAfter (casedBefore : Bool) : List Char → List Char
  | [] => []
  | c :: s =>
    let rest := lowerAfter (if isCaseIgnorable c then casedBefore else isCased c) s
    if c = '\u03a3' then (if casedBefore && !casedFollows s then '\u03c2' else '\u03c3') :: rest
    else if c = '\u0130' then 'i' :: '\u0307' :: rest
    else lowerChar c :: rest

/-- The lower case of a text. -/
def lower (s : List Char) : List Char := lowerAfter false s

/-- The upper case of one character, which may be longer. -/
def upperOf (c : Char) : List Char :=
  match upperExpansions.lookup c.toNat with
  | some codes => codes.map Char.ofNat
  | none => [upperChar c]

/-- The upper case of a text. -/
def upper (s : List Char) : List Char := s.flatMap upperOf

end Reckoner.Text
