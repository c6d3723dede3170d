import Reckoner.Config.Document
import Reckoner.Config.Overlay
import Reckoner.Proofs.Json.Within

/-!
# What is found in layers

When one object is laid over another one, every path leads through both of them as far as both have
objects, and from there on through one of them alone: through the upper one if it has the next key.

* `lookup_overlayMembers_of_some`, `lookup_overlayMembers_of_none` — the value of one key.
* `IsLongestShared` — how far a path leads through objects in both.
* `FoundAt` — what is then found at the path.
* `exists_foundAt` — every path is followed in this way.
* `overlayMembers_nil`, `overlay_overlay` — nothing is laid over something, something over nothing,
  and the same over it once more.
* `overlayMembers_lays` — **the law of layers.**
-/

namespace Reckoner.Json

variable {base above : Members} {key : String} {value : Json}

/-! ### The value of one key -/

/-- Over nothing, a value is laid as it is. -/
theorem overlay_none (v : Json) : overlay none v = v := by cases v <;> rfl

/-- What is no object hides what is below it. -/
theorem overlay_of_ne_obj (below : Option Json) {v : Json} (h : ∀ members, v ≠ .obj members) :
    overlay below v = v := by
  cases v with
  | obj members => exact absurd rfl (h members)
  | null | bool | int | float | str | arr => rfl

/-- What is below is hidden if it is no object. -/
theorem overlay_of_below_ne_obj {below : Option Json} (h : ∀ members, below ≠ some (.obj members))
    (v : Json) : overlay below v = v := by
  cases v with
  | obj above =>
    unfold overlay
    split
    · next members => exact absurd rfl (h members)
    · rfl
  | null | bool | int | float | str | arr => rfl

/-- A key that is not in the upper object keeps its value. -/
theorem lookup_overlayMembers_of_none (base : Members) (h : above.lookup key = none) :
    (overlayMembers base above).lookup key = base.lookup key := by
  induction above generalizing base with
  | nil => rfl
  | cons member rest ih =>
    obtain ⟨k, v⟩ := member
    have hne : key ≠ k := by
      rintro rfl
      rw [List.lookup_cons_self] at h
      cases h
    rw [List.lookup_cons, beq_eq_false_iff_ne.mpr hne] at h
    rw [overlayMembers, ih _ h, Entries.lookup_put_of_ne base _ hne]

/-- **A key of the upper object has its value, laid over the one below.** -/
theorem lookup_overlayMembers_of_some (base : Members) (hkeys : above.keys.Nodup)
    (h : above.lookup key = some value) :
    (overlayMembers base above).lookup key = some (overlay (base.lookup key) value) := by
  induction above generalizing base with
  | nil => cases h
  | cons member rest ih =>
    obtain ⟨k, v⟩ := member
    obtain ⟨hk, hrest⟩ := List.nodup_cons.mp hkeys
    rw [overlayMembers]
    by_cases hkey : key = k
    · subst hkey
      rw [List.lookup_cons_self] at h
      cases h
      -- No later member has this key.
      have hnone : rest.lookup key = none := (Entries.lookup_eq_none_iff rest key).mpr hk
      rw [lookup_overlayMembers_of_none _ hnone, Entries.lookup_put_self]
    · rw [List.lookup_cons, beq_eq_false_iff_ne.mpr hkey] at h
      rw [ih _ hrest h, Entries.lookup_put_of_ne base _ hkey]

/-- **The keys are those of either object.** -/
theorem mem_keys_overlayMembers (base : Members) (hkeys : above.keys.Nodup) (key : String) :
    key ∈ (overlayMembers base above).keys ↔ key ∈ base.keys ∨ key ∈ above.keys := by
  simp only [Entries.mem_keys_iff]
  cases h : above.lookup key with
  | none => simp [lookup_overlayMembers_of_none base h]
  | some value => simp [lookup_overlayMembers_of_some base hkeys h]

/-! ### Paths -/

/-- Two values both have objects at a path. -/
def ObjectsAt (v w : Json) (path : List String) : Prop :=
  (∃ members, v.at? path = some (.obj members)) ∧ ∃ members, w.at? path = some (.obj members)

/-- The longest part of a path at which both values have objects. -/
structure IsLongestShared (v w : Json) (path shared : List String) : Prop where
  begins : shared <+: path
  objects : ObjectsAt v w shared
  longest : ∀ other, other <+: path → ObjectsAt v w other → other.length ≤ shared.length

/-- **What is found at a path** that leads through objects in both values as far as `shared`: if
    this is the whole path, an object with the keys of both; else what is found in the upper value
    if it has the next key, and what is found in the lower one if it has not. -/
structure FoundAt (base above laid : Json) (path shared : List String) : Prop where
  whole : shared = path → ∃ lower upper members : Members, base.at? path = some (.obj lower) ∧
    above.at? path = some (.obj upper) ∧ laid.at? path = some (.obj members) ∧
      ∀ key, key ∈ members.keys ↔ key ∈ lower.keys ∨ key ∈ upper.keys
  beyond : ∀ key rest, path = shared ++ key :: rest → laid.at? path =
    if (above.at? (shared ++ [key])).isSome then above.at? path else base.at? path

/-- Behind a key with objects in both, both paths lead on from these objects. -/
theorem objectsAt_cons_iff {lower upper : Members} (hlower : base.lookup key = some (.obj lower))
    (hupper : above.lookup key = some (.obj upper)) (path : List String) :
    ObjectsAt (.obj base) (.obj above) (key :: path) ↔
      ObjectsAt (.obj lower) (.obj upper) path := by
  rw [ObjectsAt, ObjectsAt, at?_cons_of_lookup hlower, at?_cons_of_lookup hupper]

/-- What leads to objects in both leads through objects in both. -/
theorem ObjectsAt.exists_obj {path : List String}
    (h : ObjectsAt (.obj base) (.obj above) (key :: path)) :
    (∃ lower, base.lookup key = some (.obj lower)) ∧
      ∃ upper, above.lookup key = some (.obj upper) := by
  have hfirst : ∀ members : Members,
      (∃ found, (Json.obj members).at? (key :: path) = some (.obj found)) →
      ∃ inner, members.lookup key = some (.obj inner) := by
    rintro members ⟨found, hfound⟩
    obtain ⟨_, value, heq, hvalue, hpath⟩ := exists_obj_of_at?_cons hfound
    cases heq
    obtain ⟨inner, rfl⟩ := exists_obj_of_at? hpath
    exact ⟨inner, hvalue⟩
  exact ⟨hfirst base h.1, hfirst above h.2⟩

/-- One step through objects in both. -/
theorem IsLongestShared.cons {lower upper : Members} {path shared : List String}
    (h : IsLongestShared (.obj lower) (.obj upper) path shared)
    (hlower : base.lookup key = some (.obj lower))
    (hupper : above.lookup key = some (.obj upper)) :
    IsLongestShared (.obj base) (.obj above) (key :: path) (key :: shared) := by
  have hobjects := objectsAt_cons_iff hlower hupper
  refine ⟨List.cons_prefix_cons.mpr ⟨rfl, h.begins⟩, (hobjects shared).mpr h.objects, ?_⟩
  intro other hother hobj
  cases other with
  | nil => exact Nat.zero_le _
  | cons k other =>
    obtain ⟨rfl, hbegins⟩ := List.cons_prefix_cons.mp hother
    exact Nat.succ_le_succ (h.longest other hbegins ((hobjects other).mp hobj))

/-- A path leads through no objects in both, if the values of its first key are not both objects. -/
theorem isLongestShared_nil {rest : List String}
    (h : ¬ ((∃ lower, base.lookup key = some (.obj lower)) ∧
      ∃ upper, above.lookup key = some (.obj upper))) :
    IsLongestShared (.obj base) (.obj above) (key :: rest) [] := by
  refine ⟨List.nil_prefix, ⟨⟨base, rfl⟩, ⟨above, rfl⟩⟩, ?_⟩
  intro other hother hobj
  cases other with
  | nil => exact Nat.le_refl 0
  | cons k other =>
    obtain ⟨rfl, -⟩ := List.cons_prefix_cons.mp hother
    exact absurd hobj.exists_obj h

/-- Of two values that are not both objects, the upper one is taken whole. -/
theorem overlay_of_not_both {below : Option Json} {v : Json}
    (h : ¬ ((∃ lower, below = some (.obj lower)) ∧ ∃ upper, v = .obj upper)) :
    overlay below v = v := by
  by_cases hbelow : ∃ lower, below = some (.obj lower)
  · exact overlay_of_ne_obj below fun upper hupper => h ⟨hbelow, upper, hupper⟩
  · exact overlay_of_below_ne_obj (fun lower hlower => hbelow ⟨lower, hlower⟩) v

/-- **Every path is followed in both objects as far as possible**, and then in one of them. -/
theorem exists_foundAt (base : Members) (hkeys : (Json.obj above).HasDistinctKeys)
    (path : List String) : ∃ shared, IsLongestShared (.obj base) (.obj above) path shared ∧
      FoundAt (.obj base) (.obj above) (.obj (overlayMembers base above)) path shared := by
  have hnodup : above.keys.Nodup := hkeys above .self
  induction path generalizing base above with
  | nil =>
    refine ⟨[], ⟨List.prefix_refl _, ⟨⟨base, rfl⟩, ⟨above, rfl⟩⟩, fun other hother _ =>
      hother.length_le⟩, fun _ => ?_, fun key rest heq => nomatch heq⟩
    exact ⟨base, above, _, rfl, rfl, rfl, mem_keys_overlayMembers base hnodup⟩
  | cons key rest ih =>
    by_cases hboth : (∃ lower, base.lookup key = some (.obj lower)) ∧
        ∃ upper, above.lookup key = some (.obj upper)
    · -- All three paths lead on from the values of the key.
      obtain ⟨⟨lower, hlower⟩, upper, hupper⟩ := hboth
      have hkeys' : (Json.obj upper).HasDistinctKeys := hkeys.within (within_of_lookup hupper)
      have hlaid : (overlayMembers base above).lookup key =
          some (.obj (overlayMembers lower upper)) := by
        rw [lookup_overlayMembers_of_some base hnodup hupper, hlower, overlay]
      obtain ⟨shared, hlongest, hwhole, hbeyond⟩ := ih lower hkeys' (hkeys' upper .self)
      refine ⟨key :: shared, hlongest.cons hlower hupper, fun heq => ?_, fun k rest' heq => ?_⟩
      · rw [at?_cons_of_lookup hlower, at?_cons_of_lookup hupper, at?_cons_of_lookup hlaid]
        exact hwhole (List.cons_injective heq)
      · rw [List.cons_append, at?_cons_of_lookup hlower, at?_cons_of_lookup hupper,
          at?_cons_of_lookup hupper, at?_cons_of_lookup hlaid]
        exact hbeyond k rest' (List.cons_injective heq)
    · refine ⟨[], isLongestShared_nil hboth, (fun heq => nomatch heq), fun k rest' heq => ?_⟩
      cases heq
      cases hupper : above.lookup key with
      | none =>
        have hlaid := lookup_overlayMembers_of_none base hupper
        simp [hupper, hlaid]
      | some value =>
        have hlaid := lookup_overlayMembers_of_some base hnodup hupper
        rw [overlay_of_not_both] at hlaid
        · simp [hupper, hlaid]
        · rintro ⟨hlower, upper, rfl⟩
          exact hboth ⟨hlower, upper, hupper⟩

/-! ### Laying twice -/

/-- Over an empty object, an object is laid as it is. -/
theorem overlayMembers_nil (hkeys : above.keys.Nodup) : overlayMembers [] above = above := by
  -- What has been laid already stands in front, and the keys that follow are new.
  have hfront : ∀ front : Members, Entries.keys (front ++ above) |>.Nodup →
      overlayMembers front above = front ++ above := by
    clear hkeys
    induction above with
    | nil => intro front _; exact (List.append_nil front).symm
    | cons member rest ih =>
      obtain ⟨k, v⟩ := member
      intro front hnodup
      have hnone : List.lookup k front = none := by
        rw [Entries.lookup_eq_none_iff]
        intro hmem
        rw [Entries.keys, List.map_append] at hnodup
        exact (List.nodup_append.mp hnodup).2.2 k hmem k List.mem_cons_self rfl
      rw [overlayMembers, hnone, overlay_none, Entries.put_of_lookup_eq_none hnone, ih,
        List.append_assoc, List.singleton_append]
      rwa [List.append_assoc, List.singleton_append]
  exact hfront [] hkeys

/-- What is laid over an object that has it already changes nothing. -/
theorem overlayMembers_eq_self (h : ∀ key value, (key, value) ∈ above →
    ∃ found, base.lookup key = some found ∧ overlay (some found) value = found) :
    overlayMembers base above = base := by
  induction above with
  | nil => rfl
  | cons member rest ih =>
    obtain ⟨k, v⟩ := member
    obtain ⟨found, hfound, hoverlay⟩ := h k v List.mem_cons_self
    rw [overlayMembers, hfound, hoverlay, Entries.put_of_lookup_eq_some hfound]
    exact ih fun key value hmem => h key value (List.mem_cons_of_mem _ hmem)

/-- **A value that is laid over something twice is laid over it once.** -/
theorem overlay_overlay (below : Option Json) {v : Json} (hkeys : v.HasDistinctKeys) :
    overlay (some (overlay below v)) v = overlay below v := by
  induction v using byMembers generalizing below with
  | leaf v hv => rw [overlay_of_ne_obj _ hv, overlay_of_ne_obj _ hv]
  | obj above ih =>
    have hnodup : above.keys.Nodup := hkeys above .self
    have htwice : ∀ below key value, (key, value) ∈ above →
        overlay (some (overlay below value)) value = overlay below value :=
      fun below key value hmem => ih (key, value) hmem below (hkeys.within (.member hmem .self))
    -- Over an object each member finds itself laid already; over anything else, nothing is kept.
    by_cases hbelow : ∃ base, below = some (.obj base)
    · obtain ⟨base, rfl⟩ := hbelow
      rw [overlay, overlay, overlayMembers_eq_self]
      intro key value hmem
      exact ⟨_, lookup_overlayMembers_of_some base hnodup (Entries.lookup_of_mem hnodup hmem),
        htwice _ key value hmem⟩
    · rw [overlay_of_below_ne_obj fun base hbase => hbelow ⟨base, hbase⟩, overlay,
        overlayMembers_eq_self]
      intro key value hmem
      refine ⟨value, Entries.lookup_of_mem hnodup hmem, ?_⟩
      have hsame := htwice none key value hmem
      rwa [overlay_none] at hsame

/-- **The law of layers.**  Every path is followed in both objects as long as both have objects
    there, and then in the upper one if it has the next key and in the lower one if it has not.  So
    an empty object changes nothing, be it laid over another one or another one over it, and an
    object that is laid over another one twice is laid over it once. -/
theorem overlayMembers_lays (base : Members) {above : Members}
    (hkeys : (Json.obj above).HasDistinctKeys) :
    (∀ path, ∃ shared, IsLongestShared (.obj base) (.obj above) path shared ∧
      FoundAt (.obj base) (.obj above) (.obj (overlayMembers base above)) path shared) ∧
    overlayMembers base [] = base ∧ overlayMembers [] above = above ∧
      overlayMembers (overlayMembers base above) above = overlayMembers base above := by
  refine ⟨exists_foundAt base hkeys, rfl, overlayMembers_nil (hkeys above .self), ?_⟩
  have htwice := overlay_overlay (some (.obj base)) hkeys
  rw [overlay, overlay] at htwice
  exact Json.obj.inj htwice

/-- A document that sets the lifetime of the rates alone. -/
theorem overlayMembers_lays_lifetime :
    let above : Members := [("feeds", .obj [("fx", .obj [("ttl_seconds", .int 10)])])]
    (Json.obj above).HasDistinctKeys ∧
      (∃ shared, IsLongestShared (.obj Config.defaults) (.obj above) ["feeds", "fx", "url"] shared ∧
        FoundAt (.obj Config.defaults) (.obj above) (.obj (overlayMembers Config.defaults above))
          ["feeds", "fx", "url"] shared) ∧
      overlayMembers (overlayMembers Config.defaults above) above =
        overlayMembers Config.defaults above := by
  intro above
  have hkeys : (Json.obj above).HasDistinctKeys := by
    have hint : (Json.int 10).HasDistinctKeys := hasDistinctKeys_plain nofun nofun
    simp [above, hasDistinctKeys_obj_iff, hint, Entries.keys]
  obtain ⟨hfound, -, -, htwice⟩ := overlayMembers_lays Config.defaults hkeys
  exact ⟨hkeys, hfound ["feeds", "fx", "url"], htwice⟩

end Reckoner.Json
