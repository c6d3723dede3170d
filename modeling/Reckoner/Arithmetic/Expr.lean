import Reckoner.Arithmetic.Operator
import Reckoner.Number.Digits
import Reckoner.Number.Numeral
import Reckoner.Text.Quoted

/-!
# Expressions and their values

* `Expr` — the tree of an expression as it was read.  Where reading had to stop, the tree has the
  leaf `stopped` with the reason, and nothing to the right of it.
* `EvalError` — what an evaluation can end in instead of a value.
* `Expr.eval` — the value of a tree.  Operands are evaluated from left to right, so an operation
  without a result is reported before the place where reading stopped.
-/

namespace Reckoner.Arithmetic

open Reckoner.Number Reckoner.Text

/-- Why an expression cannot be read to its end. -/
inductive SyntaxError where
  /-- The character found, unless the text is at its end, where a number or operator begins. -/
  | unexpected (found : Option Char) (position : Nat)
  /-- Parentheses and signs are nested too deeply. -/
  | tooDeep
deriving DecidableEq

/-- An expression as it was read. -/
inductive Expr where
  /-- A number in its own characters. -/
  | number (literal : List Char)
  /-- A sign before an operand. -/
  | signed (minus : Bool) (operand : Expr)
  /-- Two operands and the operator between them. -/
  | binary (op : Operator) (left right : Expr)
  /-- Parentheses, of which the closing one may be missing. -/
  | group (body : Expr) (closed : Bool)
  /-- The place where reading had to stop. -/
  | stopped (error : SyntaxError)
deriving DecidableEq

/-- What an evaluation can end in instead of a value. -/
inductive EvalError where
  | syntactic (error : SyntaxError)
  | arithmetic (error : ArithmeticError)
deriving DecidableEq

/-- The wording of an evaluation error, unless it has none. -/
def EvalError.message? : EvalError → Option String
  | .syntactic (.unexpected found position) =>
    some ("Unexpected " ++ String.ofList (quoted found.toList) ++ " at position " ++
      String.ofList (natDigits position))
  | .syntactic .tooDeep => none
  | .arithmetic error => some error.message

/-- The float that the characters of a number stand for. -/
def literalValue (literal : List Char) : Float := (readFloat? literal).getD 0

/-- The result of an operation, as the result of an evaluation. -/
def applied (op : Operator) (x y : Float) : Except EvalError Float :=
  (op.apply x y).mapError .arithmetic

namespace Expr

/-- The value of an expression, operands from left to right. -/
def eval : Expr → Except EvalError Float
  | .number literal => .ok (literalValue literal)
  | .signed minus operand => do
    let x ← operand.eval
    return if minus then -x else x
  | .binary op left right => do
    let x ← left.eval
    let y ← right.eval
    applied op x y
  | .group body _ => body.eval
  | .stopped error => .error (.syntactic error)

/-- A number is its literal. -/
@[simp] theorem eval_number (literal : List Char) :
    (number literal).eval = .ok (literalValue literal) := rfl

/-- Parentheses do not change a value, whether they are closed or not. -/
@[simp] theorem eval_group (body : Expr) (closed : Bool) : (group body closed).eval = body.eval :=
  rfl

/-- Where reading has stopped there is no value. -/
@[simp] theorem eval_stopped (error : SyntaxError) :
    (stopped error).eval = .error (.syntactic error) := rfl

end Expr

end Reckoner.Arithmetic
