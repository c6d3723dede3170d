import Reckoner.Json.Basic
import Reckoner.Text.Word

/-!
# References to variables

A reference is a dollar sign and a name between braces, where the name is a word.

* `reference?` — the name in a reference at the head of a text, and what follows the reference.
* `expand` — a text with the values of variables in the places of the references to them.
* `Json.expand` — a JSON value with every text in it expanded.  Keys stay as they are.
-/

namespace Reckoner

open Reckoner.Text

/-- The name in a reference whose dollar sign has been read, and what follows the reference. -/
def reference? : List Char → Option (List Char × List Char)
  | '\x7b' :: s =>
    match s.takeWhile isWordChar, s.dropWhile isWordChar with
    | name, '\x7d' :: rest => if name.isEmpty then none else some (name, rest)
    | _, _ => none
  | _ => none

/-- What follows a reference is shorter than the text with the reference. -/
theorem length_lt_of_reference {s name rest : List Char} (h : reference? s = some (name, rest)) :
    rest.length < s.length := by
  unfold reference? at h
  split at h
  · next s =>
    split at h
    · next heq =>
      split at h
      · simp at h
      · simp only [Option.some.injEq, Prod.mk.injEq] at h
        have hle := (List.dropWhile_sublist (p := isWordChar) (l := s)).length_le
        rw [heq] at hle
        simp only [List.length_cons] at hle ⊢
        rw [← h.2]
        omega
    · simp at h
  · simp at h

/-- The value of a variable, and nothing if there is no such variable. -/
def variableValue (env : Entries String) (name : List Char) : List Char :=
  ((env.lookup (String.ofList name)).getD "").toList

/-- A text with the values of variables in the places of the references to them.  The values are not
    expanded in their turn. -/
def expand (env : Entries String) : List Char → List Char
  | [] => []
  | c :: s =>
    if c = '$' then
      match _h : reference? s with
      | some (name, rest) => variableValue env name ++ expand env rest
      | none => c :: expand env s
    else c :: expand env s
termination_by s => s.length
decreasing_by
  · have := length_lt_of_reference _h
    simp only [List.length_cons]
    omega
  · simp
  · simp

@[simp] theorem expand_nil (env : Entries String) : expand env [] = [] := by simp [expand]

mutual

/-- A JSON value with every text in it expanded. -/
def Json.expand (env : Entries String) : Json → Json
  | .str s => .str (String.ofList (Reckoner.expand env s.toList))
  | .arr items => .arr (Json.expandItems env items)
  | .obj members => .obj (Json.expandMembers env members)
  | .null => .null
  | .bool b => .bool b
  | .int n => .int n
  | .float x => .float x

/-- The items of an array with every text in them expanded. -/
def Json.expandItems (env : Entries String) : List Json → List Json
  | [] => []
  | item :: items => Json.expand env item :: Json.expandItems env items

/-- The members of an object with every text in their values expanded. -/
def Json.expandMembers (env : Entries String) : List (String × Json) → List (String × Json)
  | [] => []
  | (key, value) :: members => (key, Json.expand env value) :: Json.expandMembers env members

end

end Reckoner
