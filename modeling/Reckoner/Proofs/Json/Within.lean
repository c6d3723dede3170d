import Mathlib.Data.List.Nodup
import Reckoner.Json.Basic

/-!
# What stands within a JSON value

* `Json.Within` — a value stands within another one, however deep.
* `Json.byParts`, `Json.byMembers` — induction over a value, and over its objects.
* `Json.HasDistinctKeys` — no object within a value has one key twice.
* `Json.at?` — the value that a path of keys leads to, through objects only.
* `Json.at?_cons_of_lookup`, `Json.exists_obj_of_at?_cons` — a path is followed key by key.
-/

namespace Reckoner.Json

/-- A value stands within another one: it is that value, or it stands within an item or a member. -/
inductive Within (v : Json) : Json → Prop where
  | self : Within v v
  | item {items : List Json} {item : Json} : item ∈ items → Within v item → Within v (.arr items)
  | member {members : List (String × Json)} {key : String} {value : Json} :
    (key, value) ∈ members → Within v value → Within v (.obj members)

/-- What is within a part is within the whole. -/
theorem Within.trans {u v w : Json} (hu : Within u v) (hv : Within v w) : Within u w := by
  induction hv with
  | self => exact hu
  | item hmem _ ih => exact .item hmem ih
  | member hmem _ ih => exact .member hmem ih

/-- What is within a list is the list or within an item. -/
theorem within_arr_iff {v : Json} {items : List Json} :
    Within v (.arr items) ↔ v = .arr items ∨ ∃ item ∈ items, Within v item := by
  constructor
  · rintro (_ | ⟨hmem, hwithin⟩)
    · exact .inl rfl
    · exact .inr ⟨_, hmem, hwithin⟩
  · rintro (rfl | ⟨item, hmem, hwithin⟩)
    · exact .self
    · exact .item hmem hwithin

/-- What is within an object is the object or within the value of a member. -/
theorem within_obj_iff {v : Json} {members : List (String × Json)} :
    Within v (.obj members) ↔ v = .obj members ∨ ∃ e ∈ members, Within v e.2 := by
  constructor
  · rintro (_ | _ | ⟨hmem, hwithin⟩)
    · exact .inl rfl
    · exact .inr ⟨_, hmem, hwithin⟩
  · rintro (rfl | ⟨⟨key, value⟩, hmem, hwithin⟩)
    · exact .self
    · exact .member hmem hwithin

/-- The value of a key stands within the object. -/
theorem within_of_lookup {members : Members} {key : String} {value : Json}
    (h : members.lookup key = some value) : Within value (.obj members) :=
  .member (mem_of_lookup_eq_some h) .self

/-- **Induction over a value**: what holds of all values without parts, of an array if it holds of
    its items, and of an object if it holds of the values of its members, holds of every value. -/
theorem byParts {P : Json → Prop}
    (plain : ∀ v, (∀ items, v ≠ .arr items) → (∀ members, v ≠ .obj members) → P v)
    (arr : ∀ items, (∀ item ∈ items, P item) → P (.arr items))
    (obj : ∀ members : Members, (∀ e ∈ members, P e.2) → P (.obj members)) (v : Json) : P v :=
  @Json.rec P (fun items => ∀ item ∈ items, P item) (fun members => ∀ e ∈ members, P e.2)
    (fun e => P e.2) (plain .null nofun nofun) (fun b => plain (.bool b) nofun nofun)
    (fun n => plain (.int n) nofun nofun) (fun x => plain (.float x) nofun nofun)
    (fun s => plain (.str s) nofun nofun) arr obj nofun
    (fun _ _ hitem hitems => List.forall_mem_cons.mpr ⟨hitem, hitems⟩) nofun
    (fun _ _ he hmembers => List.forall_mem_cons.mpr ⟨he, hmembers⟩) (fun _ _ hvalue => hvalue) v

/-- Induction over the objects of a value, where arrays are not looked into. -/
theorem byMembers {P : Json → Prop} (leaf : ∀ v, (∀ members, v ≠ .obj members) → P v)
    (obj : ∀ members : Members, (∀ e ∈ members, P e.2) → P (.obj members)) (v : Json) : P v :=
  v.byParts (fun v _ hv => leaf v hv) (fun items _ => leaf (.arr items) nofun) obj

/-- No object within a value has one key twice. -/
def HasDistinctKeys (v : Json) : Prop :=
  ∀ members : Members, Within (.obj members) v → members.keys.Nodup

/-- **Every part has distinct keys** if the whole has. -/
theorem HasDistinctKeys.within {v w : Json} (h : HasDistinctKeys w) (hv : Within v w) :
    HasDistinctKeys v := fun members hmembers => h members (hmembers.trans hv)

/-- An object has distinct keys if its own keys are distinct and those within its values are. -/
theorem hasDistinctKeys_obj_iff {members : Members} : (Json.obj members).HasDistinctKeys ↔
    members.keys.Nodup ∧ ∀ e ∈ members, e.2.HasDistinctKeys := by
  constructor
  · intro h
    exact ⟨h members .self, fun e he => h.within (.member he .self)⟩
  · rintro ⟨hnodup, hvalues⟩ inner hinner
    obtain heq | ⟨e, he, hinner⟩ := within_obj_iff.mp hinner
    · cases heq
      exact hnodup
    · exact hvalues e he inner hinner

/-- A list has distinct keys if its items have. -/
theorem hasDistinctKeys_arr_iff {items : List Json} :
    (Json.arr items).HasDistinctKeys ↔ ∀ item ∈ items, item.HasDistinctKeys := by
  constructor
  · intro h item hitem
    exact h.within (.item hitem .self)
  · intro h inner hinner
    obtain heq | ⟨item, hitem, hinner⟩ := within_arr_iff.mp hinner
    · cases heq
    · exact h item hitem inner hinner

/-- A value without parts has no keys. -/
theorem hasDistinctKeys_plain {v : Json} (harr : ∀ items, v ≠ .arr items)
    (hobj : ∀ members, v ≠ .obj members) : v.HasDistinctKeys := by
  intro members hwithin
  cases hwithin with
  | self => exact absurd rfl (hobj members)
  | item => exact absurd rfl (harr _)
  | member => exact absurd rfl (hobj _)

/-! ### Paths -/

/-- The value that a path of keys leads to.  It leads through objects only. -/
def at? (v : Json) : List String → Option Json
  | [] => some v
  | key :: path => (v.member? key).bind (at? · path)

/-- At the end of a path the value itself is found. -/
@[simp] theorem at?_nil (v : Json) : v.at? [] = some v := rfl

/-- In an object a path goes on in the member with its first key. -/
@[simp] theorem at?_cons_obj (members : Members) (key : String) (path : List String) :
    (Json.obj members).at? (key :: path) = (members.lookup key).bind (at? · path) := rfl

/-- Behind a key, a path leads on from its value. -/
theorem at?_cons_of_lookup {members : Members} {key : String} {value : Json}
    (h : members.lookup key = some value) (path : List String) :
    (Json.obj members).at? (key :: path) = value.at? path := by
  rw [at?_cons_obj, h, Option.bind_some]

/-- What has members under a path that is not empty is an object. -/
theorem exists_obj_of_at?_cons {v w : Json} {key : String} {path : List String}
    (h : v.at? (key :: path) = some w) :
    ∃ members value, v = .obj members ∧ List.lookup key members = some value ∧
      value.at? path = some w := by
  obtain ⟨value, hvalue, hpath⟩ := Option.bind_eq_some_iff.mp h
  cases v with
  | obj members => exact ⟨members, value, rfl, hvalue, hpath⟩
  | null | bool | int | float | str | arr => cases hvalue

/-- What has an object under a path is an object. -/
theorem exists_obj_of_at? {v : Json} {path : List String} {found : Members}
    (h : v.at? path = some (.obj found)) : ∃ members, v = .obj members := by
  cases path with
  | nil => exact ⟨found, Option.some.inj h⟩
  | cons key path =>
    obtain ⟨members, -, rfl, -⟩ := exists_obj_of_at?_cons h
    exact ⟨members, rfl⟩

end Reckoner.Json
