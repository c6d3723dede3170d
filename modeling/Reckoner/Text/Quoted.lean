import Reckoner.Text.Printable
import Reckoner.Text.Ranges

/-!
# Quotations

A quotation shows a text between quotation marks so that every character of it can be told: what
cannot be shown is written as its code.

* `hexDigits` — a code in a fixed number of hexadecimal digits.
* `quotedChar` — one character inside a quotation.
* `quoted` — the quotation of a text.  The mark is `'`, or `"` where the text holds a `'` and no
  `"`.
-/

namespace Reckoner.Text

/-- The last `width` hexadecimal digits of a number. -/
def hexDigits : Nat → Nat → List Char
  | 0, _ => []
  | width + 1, n => hexDigits width (n / 16) ++ [Nat.digitChar (n % 16)]

/-- A character that a quotation shows unescaped. -/
def isPrintable (c : Char) : Bool := inRanges printableRanges c.toNat

/-- One character inside a quotation with the given mark. -/
def quotedChar (mark c : Char) : List Char :=
  if c = mark || c = '\\' then ['\\', c]
  else if c = '\n' then ['\\', 'n']
  else if c = '\r' then ['\\', 'r']
  else if c = '\t' then ['\\', 't']
  else if isPrintable c then [c]
  else if c.toNat < 0x100 then '\\' :: 'x' :: hexDigits 2 c.toNat
  else if c.toNat < 0x10000 then '\\' :: 'u' :: hexDigits 4 c.toNat
  else '\\' :: 'U' :: hexDigits 8 c.toNat

/-- The mark of a quotation. -/
def quotationMark (s : List Char) : Char := if '\'' ∈ s ∧ '"' ∉ s then '"' else '\''

/-- The quotation of a text. -/
def quoted (s : List Char) : List Char :=
  let mark := quotationMark s
  mark :: (s.flatMap (quotedChar mark) ++ [mark])

end Reckoner.Text
