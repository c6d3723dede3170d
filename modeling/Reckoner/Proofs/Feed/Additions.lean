import Reckoner.Feed.Prices

/-!
# Adding what is read

Rates and prices get into a table in one way: what is read under a key is put there if it is a
number, passed over if it is none, and nothing comes of the whole if it cannot be read.

* `addReads` — adds what is read under keys, one after the other.
* `addRates_eq_addReads`, `addPrices_eq_addReads` — so rates and prices are added.
* `addReads_eq_error_iff` — when nothing comes of it.
* `addReads_append` — what is read is added part by part.
* `nodup_addReads` — keys stay different.
* `latestRead`, `lookup_addReads` — the last number under a key counts.
-/

namespace Reckoner

/-- What is read under keys, in order. -/
abbrev Reads := List (String × Except TooLarge (Option Float))

/-- Adds what is read under keys, one after the other. -/
def addReads (table : Entries Float) : Reads → Except TooLarge (Entries Float)
  | [] => .ok table
  | (_, .error e) :: _ => .error e
  | (_, .ok none) :: rest => addReads table rest
  | (key, .ok (some x)) :: rest => addReads (table.put key x) rest

variable {table result : Entries Float} {reads : Reads} {key : String}

/-- **Rates are added as they are read**, under their codes. -/
theorem addRates_eq_addReads (table : RateTable) (members : Members) :
    addRates table members =
      addReads table (members.map fun e => (upperCode e.1, usable? e.2)) := by
  induction members generalizing table with
  | nil => rfl
  | cons member rest ih =>
    obtain ⟨key, value⟩ := member
    rw [addRates, List.map_cons]
    rcases usable? value with e | _ | x
    · rfl
    · exact ih table
    · exact ih (table.put (upperCode key) x)

/-- **Prices are added as they are read**, under the names of the assets. -/
theorem addPrices_eq_addReads (data : Members) (prices : Entries Float) (names : List String) :
    addPrices data prices names =
      addReads prices (names.map fun name => (name, priceIn data name)) := by
  induction names generalizing prices with
  | nil => rfl
  | cons name rest ih =>
    rw [addPrices, List.map_cons]
    rcases priceIn data name with e | _ | x
    · rfl
    · exact ih prices
    · exact ih (prices.put name x)

/-- **Nothing comes of it exactly if something cannot be read.** -/
theorem addReads_eq_error_iff {e : TooLarge} :
    addReads table reads = .error e ↔ ∃ key, (key, .error e) ∈ reads := by
  induction reads generalizing table with
  | nil => exact iff_of_false (by simp [addReads]) (by simp)
  | cons first rest ih =>
    obtain ⟨key, e' | _ | x⟩ := first
    · exact iff_of_true rfl ⟨key, List.mem_cons_self⟩
    · rw [addReads, ih]
      simp
    · rw [addReads, ih]
      simp

/-- What is read is added part by part. -/
theorem addReads_append (table : Entries Float) (front back : Reads) :
    addReads table (front ++ back) = (addReads table front).bind (addReads · back) := by
  induction front generalizing table with
  | nil => rfl
  | cons first rest ih =>
    obtain ⟨key, e | _ | x⟩ := first
    · rfl
    · exact ih table
    · exact ih (table.put key x)

/-- Keys stay different. -/
theorem nodup_addReads (h : addReads table reads = .ok result) (htable : table.keys.Nodup) :
    result.keys.Nodup := by
  induction reads generalizing table with
  | nil =>
    cases h
    exact htable
  | cons first rest ih =>
    obtain ⟨key, e | _ | x⟩ := first
    · cases h
    · exact ih h htable
    · exact ih h (Entries.nodup_keys_put htable key x)

/-- The last number that is read under a key. -/
def latestRead (key : String) : Reads → Option Float
  | [] => none
  | (k, read) :: rest => (latestRead key rest).or (if k = key then read.toOption.join else none)

/-- **The last number that is read under a key counts**, and if there is none, the key keeps what it
    had. -/
theorem lookup_addReads (h : addReads table reads = .ok result) (key : String) :
    result.lookup key = (latestRead key reads).or (table.lookup key) := by
  induction reads generalizing table with
  | nil =>
    cases h
    rfl
  | cons first rest ih =>
    obtain ⟨k, e | _ | x⟩ := first
    · cases h
    · -- What is no number counts under no key.
      rw [ih h, latestRead, Option.or_assoc]
      congr 1
      split <;> rfl
    · rw [ih h, latestRead, Option.or_assoc]
      congr 1
      by_cases hk : k = key
      · subst hk
        simp [Except.toOption]
      · rw [if_neg hk, Entries.lookup_put_of_ne table x (Ne.symm hk), Option.none_or]

end Reckoner
