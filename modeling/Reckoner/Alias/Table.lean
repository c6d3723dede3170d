/-!
# Tables of keys

* `Table` — keys with what they stand for, in the order in which they were registered.
* `Table.insert` — registers a key.  The first registration of a key stays, and the empty key cannot
  be registered.
* `Table.lookup_insertAll` — what a key stands for after any registrations.
-/

namespace Reckoner.Alias

/-- Keys with what they stand for, in the order in which they were registered. -/
abbrev Table (α : Type) := List (String × α)

namespace Table

variable {α : Type}

/-- Whether a key can be registered: it is not empty and not yet there. -/
def admits (t : Table α) (key : String) : Bool := key != "" && (t.lookup key).isNone

/-- Registers a key, unless it is empty or already registered. -/
def insert (t : Table α) (key : String) (value : α) : Table α :=
  if t.admits key then t ++ [(key, value)] else t

/-- Registers keys in order. -/
def insertAll (t : Table α) (pairs : List (String × α)) : Table α :=
  pairs.foldl (fun t (key, value) => t.insert key value) t

@[simp] theorem insertAll_nil (t : Table α) : t.insertAll [] = t := rfl

@[simp] theorem insertAll_cons (t : Table α) (p : String × α) (ps : List (String × α)) :
    t.insertAll (p :: ps) = (t.insert p.1 p.2).insertAll ps := rfl

/-- Registering a key gives it a value, unless it is empty or has one already. -/
theorem lookup_insert (t : Table α) (key other : String) (value : α) :
    (t.insert key value).lookup other =
      (t.lookup other).or (if other = key ∧ key ≠ "" then some value else none) := by
  unfold insert
  by_cases hadmits : t.admits key = true
  · have hne : key ≠ "" := by
      simp only [admits, Bool.and_eq_true, bne_iff_ne] at hadmits
      exact hadmits.1
    rw [if_pos hadmits, List.lookup_append, List.lookup_cons, List.lookup_nil]
    by_cases hother : other = key
    · simp [hother, hne]
    · have hbeq : (other == key) = false := beq_false_of_ne hother
      simp [hother, hbeq]
  · rw [if_neg hadmits]
    by_cases hother : other = key ∧ key ≠ ""
    · -- The key is there already, so that its new value does not count.
      obtain ⟨rfl, hne⟩ := hother
      cases hlookup : t.lookup other with
      | some v => rfl
      | none => simp [admits, hlookup, hne] at hadmits
    · rw [if_neg hother, Option.or_none]

/-- **A key has the value that was registered for it first**, and the empty key has none. -/
theorem lookup_insertAll (t : Table α) (pairs : List (String × α)) (key : String) :
    (t.insertAll pairs).lookup key =
      (t.lookup key).or (if key = "" then none else pairs.lookup key) := by
  induction pairs generalizing t with
  | nil => simp
  | cons p rest ih =>
    obtain ⟨k, v⟩ := p
    rw [insertAll_cons, ih, lookup_insert, Option.or_assoc, List.lookup_cons]
    congr 1
    by_cases hkey : key = k
    · subst hkey
      by_cases hempty : key = "" <;> simp [hempty]
    · have hbeq : (key == k) = false := beq_false_of_ne hkey
      simp [hkey, hbeq]

end Table

end Reckoner.Alias
