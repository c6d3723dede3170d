import Reckoner.Json.Basic
import Reckoner.Number.Numeral

/-!
# Reading JSON

* `Json.readText?` — the characters of a string up to its closing quotation mark.
* `Json.readNumber?` — a number: whole if it has neither a point nor a power of ten.
* `Json.readValue?` — a value at the head of a text.
* `Json.read?` — the value that a text is.
-/

namespace Reckoner.Json

open Reckoner.Number

/-- The text behind the white space at its head. -/
def skipSpace (s : List Char) : List Char :=
  s.dropWhile fun c => c = ' ' ∨ c = '\n' ∨ c = '\r' ∨ c = '\t'

/-- The value of a hexadecimal digit. -/
def hexValue? (c : Char) : Option Nat :=
  if c.isDigit then some (c.toNat - 0x30)
  else if 'a' ≤ c ∧ c ≤ 'f' then some (c.toNat - 0x57)
  else if 'A' ≤ c ∧ c ≤ 'F' then some (c.toNat - 0x37)
  else none

/-- The code unit that four hexadecimal digits stand for. -/
def hexUnit? (a b c d : Char) : Option Nat := do
  return ((← hexValue? a) * 16 + (← hexValue? b)) * 256 + (← hexValue? c) * 16 + (← hexValue? d)

/-- The character of a pair of surrogates. -/
def pairedChar (high low : Nat) : Char :=
  Char.ofNat (0x10000 + (high - 0xd800) * 0x400 + (low - 0xdc00))

/-- The character of a lone code unit; a lone surrogate is replaced. -/
def unitChar (n : Nat) : Char := if 0xd800 ≤ n ∧ n < 0xe000 then '\ufffd' else Char.ofNat n

/-- The character that a letter behind a backslash stands for. -/
def escaped? : Char → Option Char
  | '"' => some '"'
  | '\\' => some '\\'
  | '/' => some '/'
  | 'b' => some '\x08'
  | 'f' => some '\x0c'
  | 'n' => some '\n'
  | 'r' => some '\r'
  | 't' => some '\t'
  | _ => none

/-- The characters of a string up to its closing quotation mark, and what follows it. -/
def readText? : List Char → Option (List Char × List Char)
  | [] => none
  | '"' :: s => some ([], s)
  | '\\' :: 'u' :: a :: b :: c :: d :: '\\' :: 'u' :: e :: f :: g :: h :: s =>
    match hexUnit? a b c d, hexUnit? e f g h with
    | some high, some low =>
      if 0xd800 ≤ high ∧ high < 0xdc00 ∧ 0xdc00 ≤ low ∧ low < 0xe000 then
        (readText? s).map fun (t, s) => (pairedChar high low :: t, s)
      else
        (readText? ('\\' :: 'u' :: e :: f :: g :: h :: s)).map fun (t, s) => (unitChar high :: t, s)
    | some unit, none =>
      (readText? ('\\' :: 'u' :: e :: f :: g :: h :: s)).map fun (t, s) => (unitChar unit :: t, s)
    | none, _ => none
  | '\\' :: 'u' :: a :: b :: c :: d :: s => do
    let unit ← hexUnit? a b c d
    (readText? s).map fun (t, s) => (unitChar unit :: t, s)
  | '\\' :: c :: s => do
    let d ← escaped? c
    (readText? s).map fun (t, s) => (d :: t, s)
  | c :: s => (readText? s).map fun (t, s) => (c :: t, s)
termination_by s => s.length

/-- The characters that numbers are made of. -/
def isNumberChar (c : Char) : Bool := c.isDigit || c ∈ ['-', '+', '.', 'e', 'E']

/-- The whole number that a text of digits with an optional minus sign stands for. -/
def readInt? (s : List Char) : Option Int :=
  let (negative, digits) := takeSign s
  match takeDigits digits with
  | (d :: ds, []) =>
    let n : Int := digitsValue (d :: ds)
    some (if negative then -n else n)
  | _ => none

/-- The number that a text stands for. -/
def readNumber? (s : List Char) : Option Json :=
  match readInt? s with
  | some n => some (.int n)
  | none => (readFloat? s).map Json.float

/-- The items of an array behind its bracket, given how its values are read, with `fuel` for one
    item each. -/
def readItems? (value : List Char → Option (Json × List Char)) :
    (fuel : Nat) → List Char → Option (List Json × List Char)
  | 0, _ => none
  | fuel + 1, s => do
    let (item, s) ← value s
    match skipSpace s with
    | ']' :: s => return ([item], s)
    | ',' :: s =>
      let (items, s) ← readItems? value fuel s
      return (item :: items, s)
    | _ => none

/-- The members of an object behind its brace, given how its values are read, with `fuel` for one
    member each. -/
def readMembers? (value : List Char → Option (Json × List Char)) :
    (fuel : Nat) → List Char → Option (Members × List Char)
  | 0, _ => none
  | fuel + 1, s =>
    match skipSpace s with
    | '"' :: s => do
      let (key, s) ← readText? s
      match skipSpace s with
      | ':' :: s =>
        let (item, s) ← value s
        match skipSpace s with
        | '}' :: s => return ([(String.ofList key, item)], s)
        | ',' :: s =>
          let (members, s) ← readMembers? value fuel s
          return ((String.ofList key, item) :: members, s)
        | _ => none
      | _ => none
    | _ => none

/-- A value at the head of a text, and what follows it, with `depth` for one level
    of nesting each. -/
def readValue? : (depth : Nat) → List Char → Option (Json × List Char)
  | 0, _ => none
  | depth + 1, s =>
    match skipSpace s with
    | '"' :: s => (readText? s).map fun (t, s) => (.str (String.ofList t), s)
    | '[' :: s =>
      match skipSpace s with
      | ']' :: s => some (.arr [], s)
      | s => (readItems? (readValue? depth) s.length s).map fun (items, s) => (.arr items, s)
    | '{' :: s =>
      match skipSpace s with
      | '}' :: s => some (.obj [], s)
      | s =>
        (readMembers? (readValue? depth) s.length s).map fun (members, s) =>
          (.obj (Entries.ofPairs members), s)
    | 't' :: 'r' :: 'u' :: 'e' :: s => some (.bool true, s)
    | 'f' :: 'a' :: 'l' :: 's' :: 'e' :: s => some (.bool false, s)
    | 'n' :: 'u' :: 'l' :: 'l' :: s => some (.null, s)
    | s =>
      (readNumber? (s.takeWhile isNumberChar)).map fun number => (number, s.dropWhile isNumberChar)

/-- The value that a text is. -/
def read? (text : String) : Option Json :=
  let s := text.toList
  match readValue? (s.length + 1) s with
  | some (value, s) => if skipSpace s = [] then some value else none
  | none => none

end Reckoner.Json
