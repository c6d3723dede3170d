/-!
# Entries

* `Entries` — values under keys, in the order in which the keys came first.
* `mem_of_lookup_eq_some` — what is found under a key stands beside it.
* `Entries.put` — gives a key a value: in the place of its entry, or else at the end.
* `Entries.erase` — takes a key away.
* `Entries.keys` — the keys that have a value.
* `Entries.lookup_of_mem` — where keys are different, every entry is found.
* `Entries.ofPairs` — the entries that pairs stand for.

The value of a key after each of these depends on the value of that key alone.
-/

namespace Reckoner

/-- Values under keys, in the order in which the keys came first. -/
abbrev Entries (α : Type) := List (String × α)

/-- What is found under a key stands beside it. -/
theorem mem_of_lookup_eq_some {κ α : Type} [BEq κ] [LawfulBEq κ] {l : List (κ × α)} {key : κ}
    {value : α} (h : l.lookup key = some value) : (key, value) ∈ l := by
  obtain ⟨before, after, heq, -⟩ := List.lookup_eq_some_iff.mp h
  rw [heq]
  exact List.mem_append_right before List.mem_cons_self

namespace Entries

variable {α : Type}

/-- Gives a key a value: in the place of its entry, or else at the end. -/
def put : Entries α → String → α → Entries α
  | [], key, value => [(key, value)]
  | (k, v) :: rest, key, value =>
    if k = key then (k, value) :: rest else (k, v) :: put rest key value

/-- Takes a key and its value away. -/
def erase (entries : Entries α) (key : String) : Entries α := entries.filter (·.1 ≠ key)

/-- The entries that pairs stand for.  A later pair gives its value to the entry of an earlier one
    with the same key. -/
def ofPairs (pairs : List (String × α)) : Entries α :=
  pairs.foldl (fun entries (key, value) => entries.put key value) []

@[simp] theorem put_nil (key : String) (value : α) : put [] key value = [(key, value)] := rfl

@[simp] theorem lookup_put_self (entries : Entries α) (key : String) (value : α) :
    (entries.put key value).lookup key = some value := by
  induction entries with
  | nil => simp [put]
  | cons e rest ih =>
    obtain ⟨k, v⟩ := e
    by_cases h : k = key
    · simp [put, h]
    · simp [put, h, List.lookup_cons, ih, beq_eq_false_iff_ne.mpr (Ne.symm h)]

/-- The other keys keep their values. -/
theorem lookup_put_of_ne (entries : Entries α) {key other : String} (value : α)
    (h : other ≠ key) : (entries.put key value).lookup other = entries.lookup other := by
  induction entries with
  | nil => simp [put, h]
  | cons e rest ih =>
    obtain ⟨k, v⟩ := e
    by_cases hk : k = key
    · subst hk
      simp [put, List.lookup_cons, beq_eq_false_iff_ne.mpr h]
    · simp [put, hk, List.lookup_cons, ih]

/-- What holds of all values and of the one that is given holds afterwards. -/
theorem forall_lookup_put {P : String → α → Prop} {entries : Entries α} {key : String} {value : α}
    (h : ∀ k v, entries.lookup k = some v → P k v) (hvalue : P key value) (k : String) (v : α)
    (hk : (entries.put key value).lookup k = some v) : P k v := by
  by_cases hkey : k = key
  · subst hkey
    rw [lookup_put_self] at hk
    cases hk
    exact hvalue
  · rw [lookup_put_of_ne entries value hkey] at hk
    exact h k v hk

/-- There are no entries but those that were there and the one that is given. -/
theorem eq_or_mem_of_mem_put {entries : Entries α} {key : String} {value : α} {e : String × α}
    (h : e ∈ entries.put key value) : e = (key, value) ∨ e ∈ entries := by
  induction entries with
  | nil => exact .inl (List.mem_singleton.mp h)
  | cons first rest ih =>
    obtain ⟨k, v⟩ := first
    by_cases hk : k = key
    · simp only [put, hk, if_true, List.mem_cons] at h
      exact h.imp_right (.tail (k, v))
    · simp only [put, hk, if_false, List.mem_cons] at h
      obtain h | h := h
      · exact .inr (h ▸ List.mem_cons_self)
      · exact (ih h).imp_right (.tail (k, v))

/-- A key has a value if it is given one, or if it had one. -/
theorem isSome_lookup_put (entries : Entries α) (key other : String) (value : α) :
    ((entries.put key value).lookup other).isSome = true ↔
      other = key ∨ (entries.lookup other).isSome = true := by
  by_cases h : other = key
  · simp [h]
  · simp [h, lookup_put_of_ne entries value h]

@[simp] theorem lookup_erase_self (entries : Entries α) (key : String) :
    (entries.erase key).lookup key = none := by
  rw [List.lookup_eq_none_iff]
  rintro ⟨k, v⟩ hmem
  have hk : k ≠ key := by simpa using (List.mem_filter.mp hmem).2
  exact bne_iff_ne.mpr hk.symm

/-- The other keys keep their values. -/
theorem lookup_erase_of_ne (entries : Entries α) {key other : String} (h : other ≠ key) :
    (entries.erase key).lookup other = entries.lookup other := by
  induction entries with
  | nil => rfl
  | cons e rest ih =>
    obtain ⟨k, v⟩ := e
    by_cases hk : k = key
    · subst hk
      simpa [erase, List.lookup_cons, beq_eq_false_iff_ne.mpr h] using ih
    · have hfilter : erase ((k, v) :: rest) key = (k, v) :: erase rest key := by
        simp [erase, hk]
      rw [hfilter, List.lookup_cons, List.lookup_cons, ih]

/-- The keys that have a value, in the order in which they came first. -/
def keys (entries : Entries α) : List String := entries.map (·.1)

theorem length_keys (entries : Entries α) : entries.keys.length = entries.length :=
  List.length_map ..

/-- A key is among the keys exactly if it has a value. -/
theorem mem_keys_iff (entries : Entries α) (key : String) :
    key ∈ entries.keys ↔ (entries.lookup key).isSome = true := by
  induction entries with
  | nil => simp [keys]
  | cons e rest ih =>
    obtain ⟨k, v⟩ := e
    by_cases hk : key = k
    · simp [keys, hk]
    · rw [List.lookup_cons, beq_eq_false_iff_ne.mpr hk, ← ih]
      simp [keys, hk]

theorem lookup_eq_none_iff (entries : Entries α) (key : String) :
    entries.lookup key = none ↔ key ∉ entries.keys := by
  rw [mem_keys_iff, Option.not_isSome_iff_eq_none]

/-- A key that is given a value for the first time comes last.  Else the keys stay as they are. -/
theorem keys_put (entries : Entries α) (key : String) (value : α) :
    (entries.put key value).keys =
      if (entries.lookup key).isSome then entries.keys else entries.keys ++ [key] := by
  induction entries with
  | nil => simp [keys]
  | cons e rest ih =>
    obtain ⟨k, v⟩ := e
    by_cases hk : k = key
    · simp [put, keys, hk]
    · have hrest : (put ((k, v) :: rest) key value).keys = k :: (put rest key value).keys := by
        simp [put, keys, hk]
      rw [hrest, ih, List.lookup_cons, beq_eq_false_iff_ne.mpr (Ne.symm hk)]
      split <;> rfl

/-- Keys stay different when one of them is given a value. -/
theorem nodup_keys_put {entries : Entries α} (h : entries.keys.Nodup) (key : String) (value : α) :
    (entries.put key value).keys.Nodup := by
  rw [keys_put]
  split
  · exact h
  · next hnone =>
    refine List.nodup_append.mpr ⟨h, List.pairwise_singleton _ _, fun other hmem k hk => ?_⟩
    obtain rfl := List.mem_singleton.mp hk
    rintro rfl
    exact hnone ((mem_keys_iff entries other).mp hmem)

/-- Where keys are different, what stands beside a key is found under it. -/
theorem lookup_of_mem {entries : Entries α} (h : entries.keys.Nodup) {key : String} {value : α}
    (hmem : (key, value) ∈ entries) : entries.lookup key = some value := by
  induction entries with
  | nil => cases hmem
  | cons e rest ih =>
    obtain ⟨k, v⟩ := e
    obtain ⟨hk, hrest⟩ := List.nodup_cons.mp h
    obtain heq | hlater := List.mem_cons.mp hmem
    · cases heq
      exact List.lookup_cons_self
    · have hne : key ≠ k := by
        rintro rfl
        exact hk (List.mem_map.mpr ⟨(key, value), hlater, rfl⟩)
      rw [List.lookup_cons, beq_eq_false_iff_ne.mpr hne]
      exact ih hrest hlater

/-- A new key comes last. -/
theorem put_of_lookup_eq_none {entries : Entries α} {key : String}
    (h : entries.lookup key = none) (value : α) :
    entries.put key value = entries ++ [(key, value)] := by
  induction entries with
  | nil => rfl
  | cons e rest ih =>
    obtain ⟨k, v⟩ := e
    have hne : k ≠ key := by
      rintro rfl
      rw [List.lookup_cons_self] at h
      cases h
    rw [List.lookup_cons, beq_eq_false_iff_ne.mpr hne.symm] at h
    rw [put, if_neg hne, ih h, List.cons_append]

/-- A key may be given the value that it has. -/
theorem put_of_lookup_eq_some {entries : Entries α} {key : String} {value : α}
    (h : entries.lookup key = some value) : entries.put key value = entries := by
  induction entries with
  | nil => cases h
  | cons e rest ih =>
    obtain ⟨k, v⟩ := e
    by_cases hk : k = key
    · subst hk
      rw [List.lookup_cons_self] at h
      cases h
      exact if_pos rfl
    · rw [List.lookup_cons, beq_eq_false_iff_ne.mpr (Ne.symm hk)] at h
      rw [put, if_neg hk, ih h]

/-- The entries that pairs stand for have different keys. -/
theorem nodup_keys_ofPairs (pairs : List (String × α)) : (ofPairs pairs).keys.Nodup :=
  pairs.foldlRecOn (motive := fun entries : Entries α => entries.keys.Nodup) _ List.nodup_nil
    fun _ h _ _ => nodup_keys_put h ..

/-- Every entry that pairs stand for is one of them. -/
theorem mem_of_mem_ofPairs {pairs : List (String × α)} {e : String × α} (h : e ∈ ofPairs pairs) :
    e ∈ pairs := by
  have hfold : ∀ e ∈ ofPairs pairs, e ∈ pairs :=
    pairs.foldlRecOn (motive := fun entries : Entries α => ∀ e ∈ entries, e ∈ pairs) _ nofun
      fun _ ih _ hpair _ he => (eq_or_mem_of_mem_put he).elim (· ▸ hpair) (ih _)
  exact hfold e h

/-- A key that is taken away is no longer among the keys, and the others stay as they are. -/
theorem keys_erase (entries : Entries α) (key : String) :
    (entries.erase key).keys = entries.keys.filter (· ≠ key) := by
  rw [keys, keys, List.filter_map]
  rfl

/-- Changing all values changes the value of every key. -/
theorem lookup_mapValues {β : Type} (f : α → β) (entries : Entries α) (key : String) :
    List.lookup key (entries.map fun (k, v) => (k, f v)) = (entries.lookup key).map f := by
  induction entries with
  | nil => rfl
  | cons e rest ih =>
    obtain ⟨k, v⟩ := e
    simp only [List.map_cons, List.lookup_cons, ih]
    cases key == k <;> rfl

/-- A key may be given its value before all values are changed or afterwards. -/
theorem put_mapValues {β : Type} (f : α → β) (entries : Entries α) (key : String) (value : α) :
    put (entries.map fun (k, v) => (k, f v)) key (f value) =
      (entries.put key value).map fun (k, v) => (k, f v) := by
  induction entries with
  | nil => rfl
  | cons e rest ih =>
    obtain ⟨k, v⟩ := e
    by_cases hk : k = key
    · simp [put, hk]
    · simp [put, hk, ih]

/-- A key may be taken away before all values are changed or afterwards. -/
theorem erase_mapValues {β : Type} (f : α → β) (entries : Entries α) (key : String) :
    erase (entries.map fun (k, v) => (k, f v)) key =
      (entries.erase key).map fun (k, v) => (k, f v) :=
  List.filter_map

end Entries

end Reckoner
