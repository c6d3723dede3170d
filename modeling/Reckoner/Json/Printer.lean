import Reckoner.Json.Basic
import Reckoner.Number.Shortest
import Reckoner.Text.Quoted

/-!
# Writing JSON

* `Json.write` — a value on one line, with a blank behind commas and colons.
* `Json.writeIndented` — a value with each item and member on a line of its own.
-/

namespace Reckoner.Json

open Reckoner.Number Reckoner.Text

/-- One character of a string. -/
def writeChar (c : Char) : List Char :=
  if c = '"' ∨ c = '\\' then ['\\', c]
  else if c = '\n' then ['\\', 'n']
  else if c = '\r' then ['\\', 'r']
  else if c = '\t' then ['\\', 't']
  else if c = '\x08' then ['\\', 'b']
  else if c = '\x0c' then ['\\', 'f']
  else if c.toNat < 0x20 then '\\' :: 'u' :: hexDigits 4 c.toNat
  else [c]

/-- A string between quotation marks. -/
def writeText (s : String) : String :=
  String.ofList ('"' :: (s.toList.flatMap writeChar ++ ['"']))

/-- A float.  The values that are no numbers are written as words. -/
def writeFloat (x : Float) : String :=
  if x.isNaN then "NaN"
  else if x.isInf then (if x < 0 then "-Infinity" else "Infinity")
  else String.ofList (plainText x)

mutual

/-- A value on one line. -/
def write : Json → String
  | .null => "null"
  | .bool b => if b then "true" else "false"
  | .int n => toString n
  | .float x => writeFloat x
  | .str s => writeText s
  | .arr items => "[" ++ ", ".intercalate (writeItems items) ++ "]"
  | .obj members => "\x7b" ++ ", ".intercalate (writeMembers members) ++ "\x7d"

/-- The items of an array. -/
def writeItems : List Json → List String
  | [] => []
  | item :: items => write item :: writeItems items

/-- The members of an object. -/
def writeMembers : List (String × Json) → List String
  | [] => []
  | (key, value) :: members => (writeText key ++ ": " ++ write value) :: writeMembers members

end

/-- Lines between two brackets, divided by commas, for a value whose own line is indented by
    `margin`. -/
def bracketed (margin opening closing : String) (lines : List String) : String :=
  if lines.isEmpty then opening ++ closing
  else
    opening ++ "\n" ++ ",\n".intercalate (lines.map fun line => margin ++ "  " ++ line) ++ "\n" ++
      margin ++ closing

mutual

/-- A value with each item and member on a line of its own, where its first line is indented by
    `margin`. -/
def writeIndentedAt (margin : String) : Json → String
  | .arr items => bracketed margin "[" "]" (indentedItems (margin ++ "  ") items)
  | .obj members => bracketed margin "\x7b" "\x7d" (indentedMembers (margin ++ "  ") members)
  | .null => "null"
  | .bool b => if b then "true" else "false"
  | .int n => toString n
  | .float x => writeFloat x
  | .str s => writeText s

/-- The items of an array. -/
def indentedItems (margin : String) : List Json → List String
  | [] => []
  | item :: items => writeIndentedAt margin item :: indentedItems margin items

/-- The members of an object. -/
def indentedMembers (margin : String) : List (String × Json) → List String
  | [] => []
  | (key, value) :: members =>
    (writeText key ++ ": " ++ writeIndentedAt margin value) :: indentedMembers margin members

end

/-- A value with each item and member on a line of its own. -/
def writeIndented (value : Json) : String := writeIndentedAt "" value

end Reckoner.Json
