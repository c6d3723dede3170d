import Reckoner.Answer
import Reckoner.Arithmetic.Reader
import Reckoner.Number.Words
import Reckoner.Text.Digit

/-!
# Arithmetic queries

* `isBareNumber` — a text that is a number and nothing else.
* `looksArithmetic` — whether a text is taken for an expression: it has a digit and an operator or
  parenthesis, it has no letter, and it is not a bare number.
* `calculation?` — the answer to an arithmetic query.
-/

namespace Reckoner.Arithmetic

open Reckoner.Number Reckoner.Text

/-- Whether nothing is left of a text but one line end. -/
def atEnd (s : List Char) : Bool := s = [] ∨ s = ['\n']

/-- The text without a point at its head. -/
def dropPoint : List Char → List Char
  | '.' :: s => s
  | s => s

/-- An optional sign and digits of any script, with at most one point after the first of them. -/
def isBareNumber (s : List Char) : Bool :=
  let s := (takeSign s).2
  s.head?.any isDigit && atEnd ((dropPoint (s.dropWhile isDigit)).dropWhile isDigit)

/-- The operators and parentheses. -/
def isOperatorChar (c : Char) : Bool := c ∈ ['+', '-', '*', '/', '%', '^', '(', ')']

/-- Whether a text is taken for an expression. -/
def looksArithmetic (s : List Char) : Bool :=
  s.any isDigit && !s.any Char.isAlpha && s.any isOperatorChar && !isBareNumber s

/-- The answer to an arithmetic query.  There is none for a text that is not taken for an
    expression, that has no value, or whose value is not finite. -/
def calculation? (query : String) : Option Answer :=
  let text := trim query.toList
  if looksArithmetic text then
    match evaluateDense (dropBlanks text) with
    | .ok x =>
      if x.isFinite then
        some ⟨String.ofList text, "Expression", showFloat x, spelledFloat x⟩
      else none
    | .error _ => none
  else none

end Reckoner.Arithmetic
