import Reckoner.Entries

/-!
# JSON values

Whole numbers are kept apart from floats, and the members of an object keep their order.

* `Json` — the values.
* `Members` — the members of an object.
* `Json.member?` — the member of an object with a key.
-/

namespace Reckoner

/-- A JSON value. -/
inductive Json where
  | null
  | bool (b : Bool)
  | int (n : Int)
  | float (x : Float)
  | str (s : String)
  | arr (items : List Json)
  | obj (members : List (String × Json))

/-- The members of an object, in order. -/
abbrev Members := Entries Json

namespace Json

/-- The member of an object with a key.  Other values have no members. -/
def member? : Json → String → Option Json
  | .obj members, key => members.lookup key
  | _, _ => none

/-- The text that a value is. -/
def str? : Json → Option String
  | .str s => some s
  | _ => none

/-- The members of a value that is an object. -/
def members? : Json → Option Members
  | .obj members => some members
  | _ => none

/-- The items of a value that is an array. -/
def items? : Json → Option (List Json)
  | .arr items => some items
  | _ => none

/-- Whether a value is null, false, zero or empty. -/
def isBlank : Json → Bool
  | .null => true
  | .bool b => !b
  | .int n => n == 0
  | .float x => x == 0
  | .str s => s == ""
  | .arr items => items.isEmpty
  | .obj members => members.isEmpty

end Json

end Reckoner
