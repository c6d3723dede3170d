import Reckoner.Config.Store
import Reckoner.Json.Reader
import Reckoner.Proofs.Config.Layers

/-!
# The keys of configurations

No object in a configuration has one key twice, since none in a document has and no step on the way
from the document brings one in twice.

* `Json.HasDistinctKeys.expand`, `Json.at?_expand` — keys stay distinct when references are
  expanded, and paths lead on as before.
* `Json.hasDistinctKeys_of_read?` — an object that is read has distinct keys.
* `Json.hasDistinctKeys_overlayMembers` — so has one with distinct keys that another such is laid
  over.
* `Surroundings.hasDistinctKeys_overrides` — so has what a document lays over the defaults.
* `Surroundings.config_foundAt` — what stands at a path of a configuration, by the law of layers.
-/

namespace Reckoner

namespace Json

/-! ### Expanding -/

/-- An array is expanded item by item. -/
theorem expand_arr (env : Entries String) (items : List Json) :
    (Json.arr items).expand env = .arr (items.map (Json.expand env)) := by
  have hitems : expandItems env items = items.map (Json.expand env) := by
    induction items with
    | nil => rfl
    | cons item items ih => rw [expandItems, ih, List.map_cons]
  rw [Json.expand, hitems]

/-- An object is expanded value by value, and its keys stay as they are. -/
theorem expand_obj (env : Entries String) (members : Members) :
    (Json.obj members).expand env =
      .obj (members.map fun (key, value) => (key, value.expand env)) := by
  have hmembers : expandMembers env members =
      members.map fun (key, value) => (key, value.expand env) := by
    induction members with
    | nil => rfl
    | cons member members ih => rw [expandMembers, ih, List.map_cons]
  rw [Json.expand, hmembers]

/-- What is neither an array nor an object becomes neither of them. -/
theorem expand_plain (env : Entries String) {v : Json} (harr : ∀ items, v ≠ .arr items)
    (hobj : ∀ members, v ≠ .obj members) :
    (∀ items, v.expand env ≠ .arr items) ∧ ∀ members, v.expand env ≠ .obj members := by
  cases v with
  | null | bool | int | float => exact ⟨nofun, nofun⟩
  | str s =>
    rw [Json.expand]
    exact ⟨nofun, nofun⟩
  | arr items => exact absurd rfl (harr items)
  | obj members => exact absurd rfl (hobj members)

/-- **Keys stay distinct when a value is expanded.** -/
theorem HasDistinctKeys.expand (env : Entries String) {v : Json} (h : v.HasDistinctKeys) :
    (v.expand env).HasDistinctKeys := by
  induction v using byParts with
  | plain v harr hobj =>
    obtain ⟨harr', hobj'⟩ := expand_plain env harr hobj
    exact hasDistinctKeys_plain harr' hobj'
  | arr items ih =>
    rw [hasDistinctKeys_arr_iff] at h
    rw [expand_arr, hasDistinctKeys_arr_iff, List.forall_mem_map]
    exact fun item hitem => ih item hitem (h item hitem)
  | obj members ih =>
    obtain ⟨hnodup, hvalues⟩ := hasDistinctKeys_obj_iff.mp h
    rw [expand_obj, hasDistinctKeys_obj_iff, List.forall_mem_map]
    refine ⟨?_, fun e he => ih e he (hvalues e he)⟩
    rw [Entries.keys, List.map_map]
    exact hnodup

/-- **A path leads through a value that is expanded to what it leads to in the value itself**,
    expanded. -/
theorem at?_expand (env : Entries String) (v : Json) (path : List String) :
    (v.expand env).at? path = (v.at? path).map (Json.expand env) := by
  induction path generalizing v with
  | nil => rfl
  | cons key path ih =>
    cases v with
    | obj members =>
      rw [expand_obj, at?_cons_obj, at?_cons_obj, Entries.lookup_mapValues]
      cases List.lookup key members with
      | none => rfl
      | some value => exact ih value
    | arr items => rw [expand_arr]; rfl
    | str s => rw [Json.expand]; rfl
    | null | bool | int | float => rfl

/-! ### Reading -/

section Reading

variable {P : Json → Prop} {value : List Char → Option (Json × List Char)}

/-- What holds of all values that can be read holds of the items of an array. -/
theorem forall_readItems? (hvalue : ∀ s v rest, value s = some (v, rest) → P v) {fuel : Nat}
    {s rest : List Char} {items : List Json} (h : readItems? value fuel s = some (items, rest)) :
    ∀ item ∈ items, P item := by
  induction fuel generalizing s items with
  | zero => cases h
  | succ fuel ih =>
    obtain ⟨⟨item, s'⟩, hitem, h⟩ := Option.bind_eq_some_iff.mp h
    have hfirst : P item := hvalue _ _ _ hitem
    dsimp only at h
    split at h
    · cases h
      exact List.forall_mem_singleton.mpr hfirst
    · obtain ⟨⟨items', s''⟩, hitems, h⟩ := Option.bind_eq_some_iff.mp h
      cases h
      exact List.forall_mem_cons.mpr ⟨hfirst, ih hitems⟩
    · cases h

/-- What holds of all values that can be read holds of the values of members. -/
theorem forall_readMembers? (hvalue : ∀ s v rest, value s = some (v, rest) → P v) {fuel : Nat}
    {s rest : List Char} {members : Members}
    (h : readMembers? value fuel s = some (members, rest)) : ∀ e ∈ members, P e.2 := by
  induction fuel generalizing s members with
  | zero => cases h
  | succ fuel ih =>
    rw [readMembers?] at h
    split at h
    · obtain ⟨⟨key, s₁⟩, -, h⟩ := Option.bind_eq_some_iff.mp h
      dsimp only at h
      split at h
      · obtain ⟨⟨item, s₂⟩, hitem, h⟩ := Option.bind_eq_some_iff.mp h
        -- One member is read by the given reader, and the members behind it as these are.
        have hfirst : P item := hvalue _ _ _ hitem
        dsimp only at h
        split at h
        · cases h
          exact List.forall_mem_singleton.mpr hfirst
        · obtain ⟨⟨members', s₃⟩, hmembers, h⟩ := Option.bind_eq_some_iff.mp h
          cases h
          exact List.forall_mem_cons.mpr ⟨hfirst, ih hmembers⟩
        · cases h
      · cases h
    · cases h

end Reading

/-- An object without members has distinct keys. -/
theorem hasDistinctKeys_obj_nil : (Json.obj []).HasDistinctKeys :=
  hasDistinctKeys_obj_iff.mpr ⟨List.nodup_nil, nofun⟩

/-- The members that are read are put together key by key. -/
theorem hasDistinctKeys_ofPairs {pairs : List (String × Json)}
    (h : ∀ e ∈ pairs, e.2.HasDistinctKeys) : (Json.obj (Entries.ofPairs pairs)).HasDistinctKeys :=
  hasDistinctKeys_obj_iff.mpr ⟨Entries.nodup_keys_ofPairs pairs, fun e he =>
    h e (Entries.mem_of_mem_ofPairs he)⟩

/-- A number has no keys at all. -/
theorem hasDistinctKeys_of_readNumber? {s : List Char} {v : Json} (h : readNumber? s = some v) :
    v.HasDistinctKeys := by
  rw [readNumber?] at h
  split at h
  · cases h
    exact hasDistinctKeys_plain nofun nofun
  · obtain ⟨x, -, rfl⟩ := Option.map_eq_some_iff.mp h
    exact hasDistinctKeys_plain nofun nofun

/-- **What is read has distinct keys**, at any depth: a member takes the place of one
    with its key. -/
theorem hasDistinctKeys_of_readValue? {depth : Nat} {s rest : List Char} {v : Json}
    (h : readValue? depth s = some (v, rest)) : v.HasDistinctKeys := by
  induction depth generalizing s v rest with
  | zero => cases h
  | succ depth ih =>
    -- What is read inside a value is read one level less deep, so the induction serves it.
    have hvalue : ∀ s v rest, readValue? depth s = some (v, rest) → v.HasDistinctKeys :=
      fun _ _ _ h => ih h
    rw [readValue?] at h
    split at h
    · obtain ⟨_, -, h⟩ := Option.map_eq_some_iff.mp h
      cases h
      exact hasDistinctKeys_plain nofun nofun
    · split at h
      · cases h
        exact hasDistinctKeys_arr_iff.mpr nofun
      · obtain ⟨_, hitems, h⟩ := Option.map_eq_some_iff.mp h
        cases h
        exact hasDistinctKeys_arr_iff.mpr (forall_readItems? hvalue hitems)
    · split at h
      · cases h
        exact hasDistinctKeys_obj_nil
      · obtain ⟨_, hmembers, h⟩ := Option.map_eq_some_iff.mp h
        cases h
        -- A text may give one key twice: the later member then takes the place of the earlier.
        exact hasDistinctKeys_ofPairs (forall_readMembers? hvalue hmembers)
    · cases h
      exact hasDistinctKeys_plain nofun nofun
    · cases h
      exact hasDistinctKeys_plain nofun nofun
    · cases h
      exact hasDistinctKeys_plain nofun nofun
    · obtain ⟨number, hnumber, h⟩ := Option.map_eq_some_iff.mp h
      cases h
      exact hasDistinctKeys_of_readNumber? hnumber

/-- **No object that is read has one key twice**, whatever the text. -/
theorem hasDistinctKeys_of_read? {text : String} {v : Json} (h : read? text = some v) :
    v.HasDistinctKeys := by
  rw [read?] at h
  split at h
  · next hread =>
    split_ifs at h
    cases h
    exact hasDistinctKeys_of_readValue? hread
  · cases h

/-! ### Laying -/

/-- A member that is put takes the place of one with its key. -/
theorem HasDistinctKeys.put {members : Members} (h : (Json.obj members).HasDistinctKeys)
    (key : String) {v : Json} (hv : v.HasDistinctKeys) :
    (Json.obj (members.put key v)).HasDistinctKeys := by
  obtain ⟨hnodup, hvalues⟩ := hasDistinctKeys_obj_iff.mp h
  refine hasDistinctKeys_obj_iff.mpr ⟨Entries.nodup_keys_put hnodup key v, fun e he => ?_⟩
  obtain rfl | he := Entries.eq_or_mem_of_mem_put he
  · exact hv
  · exact hvalues e he

/-- Member by member, an object with distinct keys is laid over another one. -/
theorem hasDistinctKeys_overlayMembers_of {base above : Members}
    (hbase : (Json.obj base).HasDistinctKeys)
    (habove : ∀ e ∈ above, ∀ below : Option Json, (∀ b ∈ below, b.HasDistinctKeys) →
      (overlay below e.2).HasDistinctKeys) :
    (Json.obj (overlayMembers base above)).HasDistinctKeys := by
  induction above generalizing base with
  | nil => exact hbase
  | cons member rest ih =>
    obtain ⟨hfirst, hrest⟩ := List.forall_mem_cons.mp habove
    have hvalue : (overlay (base.lookup member.1) member.2).HasDistinctKeys :=
      hfirst _ fun b hb => hbase.within (within_of_lookup hb)
    exact ih (hbase.put member.1 hvalue) hrest

/-- A value laid over another one has no key twice, neither its own nor one from below. -/
theorem hasDistinctKeys_overlay {below : Option Json} {v : Json}
    (hbelow : ∀ b ∈ below, b.HasDistinctKeys) (hv : v.HasDistinctKeys) :
    (overlay below v).HasDistinctKeys := by
  induction v using byMembers generalizing below with
  | leaf v hobj => rwa [overlay_of_ne_obj below hobj]
  | obj above ih =>
    by_cases hbase : ∃ base, below = some (.obj base)
    · obtain ⟨base, rfl⟩ := hbase
      have hvalues := (hasDistinctKeys_obj_iff.mp hv).2
      rw [overlay]
      exact hasDistinctKeys_overlayMembers_of (hbelow _ rfl) fun e he _ hb =>
        ih e he hb (hvalues e he)
    · rwa [overlay_of_below_ne_obj fun base heq => hbase ⟨base, heq⟩]

/-- **Keys stay distinct when one object is laid over another one.** -/
theorem hasDistinctKeys_overlayMembers {base above : Members}
    (hbase : (Json.obj base).HasDistinctKeys) (habove : (Json.obj above).HasDistinctKeys) :
    (Json.obj (overlayMembers base above)).HasDistinctKeys := by
  have hbelow : ∀ b ∈ some (Json.obj base), b.HasDistinctKeys := fun b hb =>
    Option.some.inj hb ▸ hbase
  have hlaid := hasDistinctKeys_overlay hbelow habove
  rwa [overlay] at hlaid

end Json

/-! ### Configurations -/

namespace Config

open Json

/-- A key that is given is the only member. -/
theorem hasDistinctKeys_withKey (apiKey : String) :
    (Json.obj (withKey apiKey)).HasDistinctKeys := by
  have hint : ∀ n, (Json.int n).HasDistinctKeys := fun n => hasDistinctKeys_plain nofun nofun
  have hstr : ∀ s, (Json.str s).HasDistinctKeys := fun s => hasDistinctKeys_plain nofun nofun
  simp [withKey, hasDistinctKeys_obj_iff, hint, hstr, Entries.keys]

end Config

namespace Surroundings

open Config Json

/-- Documents that are read, and the one that comes with the program, have distinct keys. -/
theorem hasDistinctKeys_withBundled (env : Entries String)
    {documents : Entries (Except String Json)}
    (hread : ∀ path v, documents.lookup path = some (.ok v) → ∃ text, read? text = some v) :
    ∀ path v, (withBundled env documents).documents.lookup path = some (.ok v) →
      v.HasDistinctKeys := by
  intro path v hv
  rw [withBundled, List.lookup_append] at hv
  rcases Option.or_eq_some_iff.mp hv with hv | ⟨-, hv⟩
  · obtain ⟨text, htext⟩ := hread path v hv
    exact hasDistinctKeys_of_read? htext
  · cases List.mem_singleton.mp (mem_of_lookup_eq_some hv)
    exact hasDistinctKeys_withKey _

variable {w : Surroundings}
  (hdocs : ∀ path v, w.documents.lookup path = some (.ok v) → v.HasDistinctKeys)
include hdocs

/-- What a document lays over the defaults has distinct keys. -/
theorem hasDistinctKeys_overrides {path : String} {above : Members}
    (h : w.overrides path = .ok above) : (Json.obj above).HasDistinctKeys := by
  rw [overrides] at h
  split at h
  · cases h
    exact hasDistinctKeys_obj_nil
  · cases h
  · next value hvalue =>
    split_ifs at h
    · cases h
      exact hasDistinctKeys_obj_nil
    · split at h
      · cases h
        exact hdocs path _ hvalue
      · cases h

/-- **What stands in a configuration.** No object in it has one key twice.  Every path leads to what
    the law of layers finds where the members of the document are laid over the defaults, with the
    references in it expanded. -/
theorem config_foundAt {named : Option String} {config : Members}
    (h : w.config named = .ok config) :
    ∃ above laid, w.overrides (w.path named) = .ok above ∧ (Json.obj config).HasDistinctKeys ∧
      ∀ path, (Json.obj config).at? path = (laid.at? path).map (Json.expand w.env) ∧
        ∃ shared, IsLongestShared (.obj defaults) (.obj above) path shared ∧
          FoundAt (.obj defaults) (.obj above) laid path shared := by
  rw [Surroundings.config] at h
  cases habove : w.overrides (w.path named) with
  | error e =>
    rw [habove] at h
    cases h
  | ok above =>
    rw [habove] at h
    cases h
    -- Distinct keys stay distinct when overrides are laid over defaults and references expanded.
    have hkeys := hasDistinctKeys_overrides hdocs habove
    have hlaid := hasDistinctKeys_overlayMembers (hasDistinctKeys_withKey "") hkeys
    have hexpanded := hlaid.expand w.env
    rw [Json.expand] at hexpanded
    refine ⟨above, .obj (overlayMembers defaults above), rfl, hexpanded, fun path => ⟨?_, ?_⟩⟩
    · exact at?_expand w.env (.obj (overlayMembers defaults above)) path
    · exact exists_foundAt defaults hkeys path

end Surroundings

end Reckoner
