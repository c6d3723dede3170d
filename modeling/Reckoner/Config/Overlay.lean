import Reckoner.Json.Kind

/-!
# Laying one configuration over another

* `Json.overlay` — what becomes of a value when another one is laid over it.
* `Json.overlayMembers` — the members of an object with those of another one laid over them.
* `Json.laidOver` — a value with another one laid over it, where both should be objects.
-/

namespace Reckoner

/-- Why one value cannot be laid over another one. -/
inductive OverlayError where
  /-- One of them is no object. -/
  | unmet (e : Unmet)
  /-- A member is to be put into a value that is no object. -/
  | closed (kind : Json.Kind)
deriving DecidableEq

/-- The wording of the error. -/
def OverlayError.message : OverlayError → String
  | .unmet e => e.message
  | .closed .arr => "list indices must be integers or slices, not str"
  | .closed kind => "'" ++ kind.name ++ "' object does not support item assignment"

namespace Json

mutual

/-- What becomes of a value, or of its lack, when another one is laid over it: two objects are laid
    over each other member by member, and otherwise the upper value hides the lower one. -/
def overlay (below : Option Json) : (above : Json) → Json
  | .obj above =>
    match below with
    | some (.obj below) => .obj (overlayMembers below above)
    | _ => .obj above
  | .null => .null
  | .bool b => .bool b
  | .int n => .int n
  | .float x => .float x
  | .str s => .str s
  | .arr items => .arr items

/-- The members of an object with those of another one laid over them.  A key that both have keeps
    its place, and new keys follow in their order. -/
def overlayMembers (below : Members) : (above : List (String × Json)) → Members
  | [] => below
  | (key, value) :: above =>
    overlayMembers (Entries.put below key (overlay (List.lookup key below) value)) above

end

/-- A value with another one laid over it, where both should be objects.  An object without members
    can be laid over everything. -/
def laidOver (below above : Json) : Except OverlayError Json := do
  let above ← (above.object .members).mapError .unmet
  match below, above with
  | .obj below, above => return .obj (overlayMembers below above)
  | below, [] => return below
  | below, (_, .obj _) :: _ => throw (.unmet ⟨below.kind, .member⟩)
  | below, _ :: _ => throw (.closed below.kind)

end Json

end Reckoner
