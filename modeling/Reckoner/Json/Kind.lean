import Reckoner.Json.Basic

/-!
# Kinds of JSON values

Where a value of the wrong kind turns up, messages name its kind.

* `Json.Kind` — the kinds of values.
* `Json.kind` — the kind of a value.
* `Unmet` — why something cannot be had from a value.
* `Json.object` — the members of a value, which must be an object.
-/

namespace Reckoner

/-- The kinds of JSON values. -/
inductive Json.Kind where
  | null | bool | int | float | str | arr | obj
deriving DecidableEq

/-- The name of a kind as messages spell it. -/
def Json.Kind.name : Json.Kind → String
  | .null => "NoneType"
  | .bool => "bool"
  | .int => "int"
  | .float => "float"
  | .str => "str"
  | .arr => "list"
  | .obj => "dict"

/-- The kind of a value. -/
def Json.kind : Json → Json.Kind
  | .null => .null
  | .bool _ => .bool
  | .int _ => .int
  | .float _ => .float
  | .str _ => .str
  | .arr _ => .arr
  | .obj _ => .obj

/-- What a value can be asked for. -/
inductive Demand where
  /-- The member of an object with a key. -/
  | member
  /-- All members of an object. -/
  | members
  /-- The beginning of a text. -/
  | opening
  /-- A text without what it should not end with. -/
  | trimming
deriving DecidableEq

/-- The name of a demand as messages spell it. -/
def Demand.name : Demand → String
  | .member => "get"
  | .members => "items"
  | .opening => "startswith"
  | .trimming => "rstrip"

/-- A value is asked for something that values of its kind do not have. -/
structure Unmet where
  kind : Json.Kind
  demand : Demand
deriving DecidableEq

/-- The wording of an unmet demand. -/
def Unmet.message (e : Unmet) : String :=
  "'" ++ e.kind.name ++ "' object has no attribute '" ++ e.demand.name ++ "'"

/-- The members of a value that is asked for one of them, or for all: it must be an object. -/
def Json.object (value : Json) (demand : Demand) : Except Unmet Members :=
  match value with
  | .obj members => .ok members
  | value => .error ⟨value.kind, demand⟩

/-- The text of a value that is asked for a part of it: it must be a text. -/
def Json.text (value : Json) (demand : Demand) : Except Unmet String :=
  match value with
  | .str s => .ok s
  | value => .error ⟨value.kind, demand⟩

end Reckoner
