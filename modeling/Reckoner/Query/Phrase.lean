import Reckoner.Text.Blank

/-!
# Phrases and separators

* `caseless` — one representative for the characters that are equal up to case.
* `isPhraseChar` — the characters that the name of a unit or currency may be typed with.
* `separator?` — a separator between blanks: `to`, `in`, `as` or `=`.
* `phrasePair?` — the two phrases of a query.  The first one is as short as possible.
-/

namespace Reckoner.Query

open Reckoner.Text

/-- The currency symbols that may stand before an amount. -/
def currencySymbols : List Char := ['$', '€', '£', '¥', '₹', '₿', '₺', '₱', '₩']

/-- One representative for the characters of a phrase that are equal up to case. -/
def caseless (c : Char) : Char :=
  if c.isUpper then c.toLower
  else if c = '\u0130' ∨ c = '\u0131' then 'i'
  else if c = '\u017f' then 's'
  else if c = '\u212a' then 'k'
  else if c = '\u03bc' ∨ c = '\u039c' then '\u00b5'
  else c

/-- The marks that a phrase may hold besides letters, digits, blanks and currency symbols. -/
def phraseMarks : List Char := ['_', '°', '\u00b5', '²', '³', '^', '/', '.', ',', '-']

/-- The characters that a phrase may hold. -/
def isPhraseChar (c : Char) : Bool :=
  let d := caseless c
  d.isAlphanum || isBlank d || d ∈ phraseMarks || d ∈ currencySymbols

/-- What follows a separator word at the head of a text. -/
def afterWord? : List Char → Option (List Char)
  | '=' :: s => some s
  | a :: b :: s =>
    if (caseless a, caseless b) ∈ [('t', 'o'), ('i', 'n'), ('a', 's')] then some s else none
  | _ => none

/-- What follows the blanks at the head of a text, of which there must be one at least. -/
def afterBlanks? (s : List Char) : Option (List Char) :=
  if s.head?.any isBlank then some (trimStart s) else none

/-- What follows a separator and the blanks around it at the head of a text. -/
def separator? (s : List Char) : Option (List Char) :=
  ((afterBlanks? s).bind afterWord?).bind afterBlanks?

/-- The phrase that a text is, if it is one. -/
def wholePhrase? (s : List Char) : Option (List Char) :=
  if s ≠ [] ∧ s.all isPhraseChar then some s else none

/-- The phrase behind a separator at the head of a text, which it must fill to its end. -/
def targetPhrase? (s : List Char) : Option (List Char) := (separator? s).bind wholePhrase?

/-- The two phrases that a text is made of, with a separator between them.  The first phrase is as
    short as possible. -/
def phrasePair? : List Char → Option (List Char × List Char)
  | [] => none
  | c :: s =>
    if isPhraseChar c then
      match targetPhrase? s with
      | some target => some ([c], target)
      | none => (phrasePair? s).map fun (source, target) => (c :: source, target)
    else none

end Reckoner.Query
