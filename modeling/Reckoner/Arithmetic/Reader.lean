import Reckoner.Arithmetic.Expr
import Reckoner.Text.Blank

/-!
# Reading expressions

An expression is a chain of operands with operators between them.  An operand is a number or a
parenthesised expression after any number of signs.  Chains are read first and then divided: powers
bind tighter than products, products tighter than sums, and on every level the operators group to
the left.  Signs bind tighter than powers.  A closing parenthesis may be missing.

* `operand` — reads an operand.
* `chain` — reads the operators and operands that follow one.
* `link`, `treeOf` — divide a chain.
* `expression` — reads an expression.
* `evaluateText` — the value of a text without its blanks.
-/

namespace Reckoner.Arithmetic

open Reckoner.Text

/-! ### Operators and numbers -/

/-- The operator at the head of a text, and what follows it. -/
def operator? : List Char → Option (Operator × List Char)
  | '^' :: s => some (.pow, s)
  | '*' :: '*' :: s => some (.pow, s)
  | '*' :: s => some (.mul, s)
  | '/' :: s => some (.div, s)
  | '%' :: s => some (.rem, s)
  | '+' :: s => some (.add, s)
  | '-' :: s => some (.sub, s)
  | _ => none

/-- The longest text of digits with at most one point at the head of a text, and what follows it. -/
def takeLiteral (s : List Char) : List Char × List Char :=
  let whole := s.takeWhile Char.isDigit
  match s.dropWhile Char.isDigit with
  | '.' :: rest => (whole ++ '.' :: rest.takeWhile Char.isDigit, rest.dropWhile Char.isDigit)
  | rest => (whole, rest)

/-- Reads a number, where `length` is the length of the whole text.  What is found instead of a
    number is looked for behind a lone point, but placed where the number should begin. -/
def number (length : Nat) (s : List Char) : Expr × List Char :=
  let (literal, rest) := takeLiteral s
  if literal = [] ∨ literal = ['.'] then
    (.stopped (.unexpected rest.head? (length - s.length)), [])
  else (.number literal, rest)

/-! ### Dividing a chain -/

/-- Joins the operands of a chain around every operator of one level, from the left. -/
def link (level : Operator → Bool) (first : Expr) :
    List (Operator × Expr) → Expr × List (Operator × Expr)
  | [] => (first, [])
  | (op, e) :: rest =>
    if level op then link level (.binary op first e) rest
    else let (e, rest) := link level e rest; (first, (op, e) :: rest)

/-- The tree of a chain. -/
def treeOf (first : Expr) (rest : List (Operator × Expr)) : Expr :=
  let (first, rest) := link Operator.isPower first rest
  let (first, rest) := link Operator.isMultiplicative first rest
  (link Operator.isAdditive first rest).1

/-! ### Operands and expressions -/

/-- Reads the operators and operands that follow an operand, with `fuel` for one operator each. -/
def chain (operand : List Char → Expr × List Char) :
    (fuel : Nat) → List Char → List (Operator × Expr) × List Char
  | 0, s => ([], s)
  | fuel + 1, s =>
    match operator? s with
    | none => ([], s)
    | some (op, s) =>
      let (e, s) := operand s
      let (rest, s) := chain operand fuel s
      ((op, e) :: rest, s)

/-- Reads an expression, given how its operands are read. -/
def expressionWith (operand : List Char → Expr × List Char) (s : List Char) : Expr × List Char :=
  let (first, s) := operand s
  let (rest, s) := chain operand s.length s
  (treeOf first rest, s)

/-- Closes a parenthesised expression, if the closing parenthesis is there. -/
def close (body : Expr) : List Char → Expr × List Char
  | ')' :: s => (.group body true, s)
  | s => (.group body false, s)

/-- Reads an operand.  Every sign takes one unit of `depth` and every parenthesis five. -/
def operand (length : Nat) : (depth : Nat) → List Char → Expr × List Char
  | depth + 1, '-' :: s => let (e, s) := operand length depth s; (.signed true e, s)
  | depth + 1, '+' :: s => let (e, s) := operand length depth s; (.signed false e, s)
  | depth + 5, '(' :: s =>
    let (body, s) := expressionWith (operand length depth) s
    close body s
  | _, '-' :: _ => (.stopped .tooDeep, [])
  | _, '+' :: _ => (.stopped .tooDeep, [])
  | _, '(' :: _ => (.stopped .tooDeep, [])
  | _, s => number length s

/-- How deeply signs and parentheses may be nested: a sign counts one and a parenthesis five. -/
def depthLimit : Nat := 980

/-- Reads an expression from a text without blanks.  What follows it is left over. -/
def expression (s : List Char) : Expr × List Char :=
  expressionWith (operand s.length depthLimit) s

/-- The value of a text without blanks, which must be an expression to its end. -/
def evaluateDense (s : List Char) : Except EvalError Float := do
  let (e, rest) := expression s
  let x ← e.eval
  match rest with
  | [] => return x
  | c :: _ => throw (.syntactic (.unexpected (some c) (s.length - rest.length)))

/-- The value of a text, blanks aside. -/
def evaluateText (s : String) : Except EvalError Float := evaluateDense (dropBlanks s.toList)

end Reckoner.Arithmetic
