import Reckoner.Proofs.Alias.Openings

/-!
# Registrations

Keys are registered in order, and each registration replies whether it was done: it is if the key is
neither empty nor registered yet.  So a table grows by the registrations that were done, and nothing
that stands in it is ever replaced.

* `Table.replies` — what the registrations reply.
* `Table.Registers` — what a table is after registrations, as against before.
* `Table.length_insertAll`, `Table.nodup_keys_insertAll` — how a table grows.
* `Table.insertAll_registers` — any number of registrations.
* `firstNamed` — what the first name with the key of a phrase stands for.
* `lookup_tableOf_key` — what a phrase names is what the first name with its key stands for.
* `insertAll_first_wins` — **the first registration wins.**
-/

namespace Reckoner.Alias

open Reckoner.Text

namespace Table

variable {α : Type} (t : Table α) (key : String) (value : α) (pairs : List (String × α))

/-! ### Replies -/

/-- What the registrations of keys reply, in order: whether each of them was done. -/
def replies (t : Table α) : List (String × α) → List Bool
  | [] => []
  | (key, value) :: pairs => t.admits key :: replies (t.insert key value) pairs

@[simp] theorem replies_cons :
    t.replies ((key, value) :: pairs) = t.admits key :: (t.insert key value).replies pairs := rfl

theorem admits_iff : t.admits key = true ↔ key ≠ "" ∧ t.lookup key = none := by
  simp [admits]

/-- A registration makes a table longer by one entry if it is done. -/
theorem length_insert :
    (t.insert key value).length = t.length + if t.admits key then 1 else 0 := by
  unfold insert
  split_ifs
  · exact List.length_append
  · rfl

/-- **A table grows by the registrations that were done.** -/
theorem length_insertAll :
    (t.insertAll pairs).length = t.length + (t.replies pairs).count true := by
  induction pairs generalizing t with
  | nil => rfl
  | cons pair pairs ih =>
    obtain ⟨key, value⟩ := pair
    rw [insertAll_cons, ih, length_insert, replies_cons, List.count_cons]
    cases t.admits key with
    | true => simp only [if_true, beq_self_eq_true]; omega
    | false => simp

/-- Keys stay different. -/
theorem nodup_keys_insert (h : (Entries.keys t).Nodup) :
    (Entries.keys (t.insert key value)).Nodup := by
  unfold insert
  split_ifs with hadmits
  · -- The new key is none of those that are there.
    have hnew : key ∉ Entries.keys t :=
      (Entries.lookup_eq_none_iff t key).mp ((t.admits_iff key).mp hadmits).2
    rw [Entries.keys, List.map_append]
    apply h.append (List.nodup_singleton key)
    exact List.disjoint_singleton.mpr hnew
  · exact h

theorem nodup_keys_insertAll (h : (Entries.keys t).Nodup) :
    (Entries.keys (t.insertAll pairs)).Nodup := by
  induction pairs generalizing t with
  | nil => exact h
  | cons pair pairs ih => exact ih _ (t.nodup_keys_insert pair.1 pair.2 h)

/-! ### What is registered -/

/-- **A table after registrations**, as against before.  What was there is kept, every other key but
    the empty one has what was registered for it first, and there are no more keys. -/
structure Registers (t : Table α) (pairs : List (String × α)) (after : Table α) : Prop where
  kept : ∀ key value, t.lookup key = some value → after.lookup key = some value
  first : ∀ before key value behind, pairs = before ++ (key, value) :: behind →
    key ∉ Entries.keys before → key ≠ "" → t.lookup key = none → after.lookup key = some value
  no_other : ∀ key, t.lookup key = none → key = "" ∨ key ∉ Entries.keys pairs →
    after.lookup key = none
  /-- A table grows by the registrations that reply that they were done. -/
  grows : after.length = t.length + (t.replies pairs).count true
  distinct : (Entries.keys t).Nodup → (Entries.keys after).Nodup

/-- **Any number of registrations.** -/
theorem insertAll_registers : t.Registers pairs (t.insertAll pairs) where
  kept key value h := by rw [lookup_insertAll, h, Option.some_or]
  first before key value behind hpairs hfirst hne hnone := by
    -- Of the pairs with one key the first is looked up.
    have hlookup : pairs.lookup key = some value := by
      have hbefore : List.lookup key before = none :=
        (Entries.lookup_eq_none_iff before key).mpr hfirst
      rw [hpairs, List.lookup_append, hbefore, List.lookup_cons_self, Option.none_or]
    rw [lookup_insertAll, hnone, if_neg hne, hlookup, Option.none_or]
  no_other key hnone hother := by
    rw [lookup_insertAll, hnone, Option.none_or]
    obtain hempty | hkey := hother
    · exact if_pos hempty
    · have hlookup : pairs.lookup key = none :=
        (Entries.lookup_eq_none_iff pairs key).mpr hkey
      rw [hlookup, ite_self]
  grows := t.length_insertAll pairs
  distinct := t.nodup_keys_insertAll pairs

end Table

/-! ### Names -/

/-- What the first name with the key of a phrase stands for. -/
def firstNamed {α : Type} (key : List Char → List Char) (names : List (String × α))
    (phrase : String) : Option α :=
  (names.find? fun entry => key entry.1.toList == key phrase.toList).map (·.2)

variable {α : Type} {key : List Char → List Char} {names : List (String × α)}

/-- Under a key, there is what the first name with this key stands for. -/
theorem lookup_map_key (k : List Char) :
    (names.map fun (name, value) => (String.ofList (key name.toList), value)).lookup
      (String.ofList k) = (names.find? fun entry => key entry.1.toList == k).map (·.2) := by
  induction names with
  | nil => rfl
  | cons entry names ih =>
    obtain ⟨name, value⟩ := entry
    have hkeys : (String.ofList k == String.ofList (key name.toList)) = (key name.toList == k) := by
      rw [Bool.eq_iff_iff, beq_iff_eq, beq_iff_eq, String.ofList_inj, eq_comm]
    rw [List.map_cons, List.lookup_cons, List.find?_cons, hkeys, ih]
    cases key name.toList == k <;> rfl

/-- **What a phrase names is what the first name with its key stands for**, as no name has the empty
    key. -/
theorem lookup_tableOf_key (hnames : ∀ entry ∈ names, key entry.1.toList ≠ []) (phrase : String) :
    (tableOf key names).lookup (String.ofList (key phrase.toList)) =
      firstNamed key names phrase := by
  rw [lookup_tableOf, lookup_map_key, firstNamed]
  split_ifs with hempty
  · -- Nothing is registered for the empty key.
    have hkey : key phrase.toList = [] := String.ofList_eq_empty_iff.mp hempty
    have hnone : names.find? (fun entry => key entry.1.toList == key phrase.toList) = none := by
      apply List.find?_eq_none.mpr
      intro entry hentry
      simpa [hkey] using hnames entry hentry
    rw [hnone]
    rfl
  · rfl

/-- The names of units and scales begin with small letters, or else have a key for other reasons. -/
theorem keys_of_names :
    (unitNames.all fun entry =>
      opensAt unitHeads entry.1 || !(unitKey (charsOf entry.1)).isEmpty) = true ∧
    (scaleNames.all fun entry =>
      opensAt unitHeads entry.1 || !(scaleKey (charsOf entry.1)).isEmpty) = true := by
  decide +kernel

theorem unitKey_ne_nil : ∀ entry ∈ unitNames, unitKey entry.1.toList ≠ [] := by
  intro entry hentry
  obtain hhead | hkey := (Bool.or_eq_true _ _).mp (List.all_eq_true.mp keys_of_names.1 _ hentry)
  · obtain ⟨c, r, heq, -⟩ := isSteady_unitHeads.opens_unitKey (opens_of_opensAt hhead)
    rw [heq]
    exact List.cons_ne_nil c r
  · rw [charsOf_eq] at hkey
    simpa using hkey

theorem scaleKey_ne_nil : ∀ entry ∈ scaleNames, scaleKey entry.1.toList ≠ [] := by
  intro entry hentry
  obtain hhead | hkey := (Bool.or_eq_true _ _).mp (List.all_eq_true.mp keys_of_names.2 _ hentry)
  · have hunit := isSteady_unitHeads.opens_unitKey (opens_of_opensAt hhead)
    obtain ⟨c, r, heq, -⟩ := isSteady_unitHeads.opens_scaleKey hunit
    rw [heq]
    exact List.cons_ne_nil c r
  · rw [charsOf_eq] at hkey
    simpa using hkey

/-- **The first registration wins**, whatever is there before and whatever is registered.  So the
    unit and the temperature scale that a phrase names are what the first name with its key stands
    for. -/
theorem insertAll_first_wins {β : Type} (t : Table β) (pairs : List (String × β)) :
    t.Registers pairs (t.insertAll pairs) ∧
      (∀ phrase, unit? phrase = firstNamed unitKey unitNames phrase) ∧
        ∀ phrase, scale? phrase = firstNamed scaleKey scaleNames phrase :=
  ⟨t.insertAll_registers pairs, lookup_tableOf_key unitKey_ne_nil,
    lookup_tableOf_key scaleKey_ne_nil⟩

/-- The empty key and a second registration are refused. -/
example : let pairs := [("km", 1), ("", 2), ("m", 3), ("km", 4)]
    Table.insertAll [] pairs = [("km", 1), ("m", 3)] ∧
      Table.replies [] pairs = [true, false, true, false] := by
  decide

end Reckoner.Alias
