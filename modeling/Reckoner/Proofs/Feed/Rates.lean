import Reckoner.Proofs.Feed.Additions
import Reckoner.Proofs.Feed.Readings

/-!
# The rates that are kept

A table has the usable rates of a reply and nothing else.  Codes are compared in upper case, and
where several members have one code, the last one that is a rate counts; a later member that is no
rate does not take an earlier rate away.

* `HasRate`, `IsLastRate` — a code has a rate among members, and which one counts.
* `latestRead_eq_some_iff` — the last number that is read under a code is its last rate.
* `addRates_eq_error_iff` — when the rates cannot be read.
* `KeepsRates`, `exists_ratesIn` — a table keeps exactly the rates among members.
* `Feed.rateTable_keepsRates` — **a feed gives exactly the rates of a reply**, with the currency
  itself at one.
-/

namespace Reckoner

open Reckoner.Number

variable {members : Members} {table : RateTable} {key code : String} {value : Json} {x : Float}

/-! ### The last rate of a code -/

/-- A code has a rate among members. -/
def HasRate (members : Members) (code : String) : Prop :=
  ∃ key value x, (key, value) ∈ members ∧ upperCode key = code ∧ IsRate value x

/-- The last rate of a code among members: no later member with this code is a rate. -/
def IsLastRate (members : Members) (code : String) (x : Float) : Prop :=
  ∃ before key value after, members = before ++ (key, value) :: after ∧ upperCode key = code ∧
    IsRate value x ∧ ¬ HasRate after code

theorem not_hasRate_nil (code : String) : ¬ HasRate [] code := by
  rintro ⟨key, value, x, hmem, -⟩
  cases hmem

theorem hasRate_cons_iff : HasRate ((key, value) :: members) code ↔
    (upperCode key = code ∧ ∃ x, IsRate value x) ∨ HasRate members code := by
  constructor
  · rintro ⟨k, v, x, hmem, hcode, hrate⟩
    obtain heq | hmem := List.mem_cons.mp hmem
    · cases heq
      exact .inl ⟨hcode, x, hrate⟩
    · exact .inr ⟨k, v, x, hmem, hcode, hrate⟩
  · rintro (⟨hcode, x, hrate⟩ | ⟨k, v, x, hmem, hcode, hrate⟩)
    · exact ⟨key, value, x, List.mem_cons_self, hcode, hrate⟩
    · exact ⟨k, v, x, List.mem_cons_of_mem _ hmem, hcode, hrate⟩

theorem not_isLastRate_nil (code : String) (x : Float) : ¬ IsLastRate [] code x := by
  rintro ⟨before, key, value, after, heq, -⟩
  simp at heq

/-- The first member counts only if there is no later rate of its code. -/
theorem isLastRate_cons_iff : IsLastRate ((key, value) :: members) code x ↔
    IsLastRate members code x ∨
      (upperCode key = code ∧ IsRate value x ∧ ¬ HasRate members code) := by
  constructor
  · rintro ⟨before, k, v, after, heq, hcode, hrate, hnone⟩
    obtain ⟨rfl, hfirst⟩ | ⟨before, rfl, rfl⟩ := List.cons_eq_append_iff.mp heq
    · cases hfirst
      exact .inr ⟨hcode, hrate, hnone⟩
    · exact .inl ⟨before, k, v, after, rfl, hcode, hrate, hnone⟩
  · rintro (⟨before, k, v, after, rfl, hcode, hrate, hnone⟩ | ⟨hcode, hrate, hnone⟩)
    · exact ⟨(key, value) :: before, k, v, after, rfl, hcode, hrate, hnone⟩
    · exact ⟨[], key, value, members, rfl, hcode, hrate, hnone⟩

/-- **A code that has a rate has a last one.** -/
theorem hasRate_iff_exists : HasRate members code ↔ ∃ x, IsLastRate members code x := by
  induction members with
  | nil => exact iff_of_false (not_hasRate_nil code) fun ⟨x, h⟩ => not_isLastRate_nil code x h
  | cons member rest ih =>
    obtain ⟨key, value⟩ := member
    simp only [hasRate_cons_iff, isLastRate_cons_iff, exists_or, ← ih]
    constructor
    · rintro (⟨hcode, x, hrate⟩ | hlater)
      · by_cases hlater : HasRate rest code
        · exact .inl hlater
        · exact .inr ⟨x, hcode, hrate, hlater⟩
      · exact .inl hlater
    · rintro (hlater | ⟨x, hcode, hrate, -⟩)
      · exact .inr hlater
      · exact .inl ⟨hcode, x, hrate⟩

/-- A number that is read off a value is the rate that the value is. -/
theorem join_toOption_usable?_eq_some_iff :
    (usable? value).toOption.join = some x ↔ IsRate value x := by
  rw [← usable?_eq_some_iff]
  rcases usable? value with e | _ | y <;> simp [Except.toOption]

/-- **The last number that is read under a code is its last rate.** -/
theorem latestRead_eq_some_iff :
    latestRead code (members.map fun e => (upperCode e.1, usable? e.2)) = some x ↔
      IsLastRate members code x := by
  induction members generalizing x with
  | nil => exact iff_of_false (by simp [latestRead]) (not_isLastRate_nil code x)
  | cons member rest ih =>
    obtain ⟨key, value⟩ := member
    have hnone : latestRead code (rest.map fun e => (upperCode e.1, usable? e.2)) = none ↔
        ¬ HasRate rest code := by
      rw [Option.eq_none_iff_forall_ne_some, hasRate_iff_exists, not_exists]
      exact forall_congr' fun x => not_congr ih
    rw [List.map_cons, latestRead, Option.or_eq_some_iff, ih, hnone, isLastRate_cons_iff,
      Option.ite_none_right_eq_some, join_toOption_usable?_eq_some_iff]
    exact or_congr_right (by rw [and_comm, and_assoc])

/-! ### The table of a reply -/

/-- **A table keeps exactly the rates among members**, each code with its last one. -/
structure KeepsRates (members : Members) (table : RateTable) : Prop where
  nodup : table.keys.Nodup
  mem_keys_iff : ∀ code, code ∈ table.keys ↔ HasRate members code
  lookup_eq_some_iff : ∀ code x, table.lookup code = some x ↔ IsLastRate members code x

/-- **Rates cannot be read exactly if one of the values is too large.** -/
theorem addRates_eq_error_iff {e : TooLarge} :
    addRates table members = .error e ↔ ∃ key value, (key, value) ∈ members ∧ IsTooLarge value := by
  rw [addRates_eq_addReads, addReads_eq_error_iff]
  simp only [List.mem_map, Prod.exists, Prod.mk.injEq, usable?_eq_error_iff]
  constructor
  · rintro ⟨-, key, value, hmem, -, hlarge⟩
    exact ⟨key, value, hmem, hlarge⟩
  · rintro ⟨key, value, hmem, hlarge⟩
    exact ⟨_, key, value, hmem, rfl, hlarge⟩

/-- The rates that are added to an empty table. -/
theorem keepsRates_addRates (h : addRates [] members = .ok table) : KeepsRates members table := by
  rw [addRates_eq_addReads] at h
  have hlookup : ∀ code x, table.lookup code = some x ↔ IsLastRate members code x := by
    intro code x
    rw [lookup_addReads h, List.lookup_nil, Option.or_none, latestRead_eq_some_iff]
  refine ⟨nodup_addReads h List.nodup_nil, fun code => ?_, hlookup⟩
  rw [Entries.mem_keys_iff, Option.isSome_iff_exists, hasRate_iff_exists]
  simp only [hlookup]

/-- **The rates of a reply can be read if its whole numbers fit**, and there are none exactly if
    there is no object of rates. -/
theorem exists_ratesIn {data : Members} (hfits : (Json.obj data).FitsFloats) :
    (ratesIn data = .ok none ∧ ∀ rates, data.lookup "rates" ≠ some (.obj rates)) ∨
      ∃ rates table, data.lookup "rates" = some (.obj rates) ∧ ratesIn data = .ok (some table) ∧
        KeepsRates rates table := by
  unfold ratesIn
  split
  · next rates hrates =>
    right
    cases htable : addRates [] rates with
    | error e =>
      obtain ⟨key, value, hmem, hlarge⟩ := addRates_eq_error_iff.mp htable
      have hwithin : Json.Within value (.obj data) :=
        (Json.Within.member hmem .self).trans (Json.within_of_lookup hrates)
      exact absurd hlarge (hfits.not_isTooLarge hwithin)
    | ok table => exact ⟨rates, table, hrates, rfl, keepsRates_addRates htable⟩
  · next hnone => exact .inl ⟨rfl, hnone⟩

/-- **A feed gives exactly the rates of a reply.**  Where all whole numbers of the reply fit, there
    are no rates exactly if the reply has no object of rates.  Else the table keeps exactly the
    rates in that object, and what the feed gives is this table with the currency itself at one,
    whatever its rate in the reply. -/
theorem Feed.rateTable_keepsRates (f : Feed) {data : Members} (hfits : (Json.obj data).FitsFloats) :
    (ratesIn data = .ok none ↔ ¬ ∃ rates, data.lookup "rates" = some (.obj rates)) ∧
      (∀ rates, data.lookup "rates" = some (.obj rates) →
        ∃ table, ratesIn data = .ok (some table) ∧ KeepsRates rates table) ∧
      ∀ code reply, reply.Carries data →
        (ratesIn data = .ok none → f.rateTable code reply = .ok none) ∧
        ∀ table, ratesIn data = .ok (some table) →
          ∃ given, f.rateTable code reply = .ok (some given) ∧ given.keys.Nodup ∧
            given.lookup (upperCode code) = some 1 ∧
            ∀ other, other ≠ upperCode code → given.lookup other = table.lookup other := by
  have hread := exists_ratesIn hfits
  refine ⟨?_, ?_, ?_⟩
  · obtain ⟨hnone, hlacks⟩ | ⟨rates, table, hrates, htable, -⟩ := hread
    · exact iff_of_true hnone fun ⟨rates, hrates⟩ => hlacks rates hrates
    · rw [htable]
      exact iff_of_false (by simp) (not_not_intro ⟨rates, hrates⟩)
  · intro rates hrates
    obtain ⟨-, hlacks⟩ | ⟨rates', table, hrates', htable, hkeeps⟩ := hread
    · exact absurd hrates (hlacks rates)
    · cases hrates.symm.trans hrates'
      exact ⟨table, htable, hkeeps⟩
  · intro code reply hcarries
    rw [f.rateTable_of_carries hcarries]
    refine ⟨fun hnone => by rw [hnone]; rfl, fun table htable => ?_⟩
    -- The table is the one of the reply, whose codes are distinct.
    have hnodup : table.keys.Nodup := by
      obtain ⟨hnone, -⟩ | ⟨rates, table', -, htable', hkeeps⟩ := hread
      · rw [hnone] at htable
        cases htable
      · cases htable.symm.trans htable'
        exact hkeeps.nodup
    refine ⟨table.put (upperCode code) 1, by rw [htable]; rfl,
      Entries.nodup_keys_put hnodup _ _, Entries.lookup_put_self _ _ _, fun other hother => ?_⟩
    exact Entries.lookup_put_of_ne table 1 hother

/-- Of three members with one code the last rate counts, although a text follows it, and the
    currency itself is at one, although the reply has another rate for it. -/
theorem Feed.rateTable_of_euro :
    let rates : Members :=
      [("usd", .float 1.5), ("Usd", .int 2), ("USD", .str "3"), ("eur", .int 7)]
    let data : Members := [("rates", .obj rates)]
    (Json.obj data).FitsFloats ∧
      ∃ given, (Feed.fiat fiatName fiatUrl (.real 5)).rateTable "eur"
          (.response 200 "" (.ok (.obj data))) = .ok (some given) ∧
        given.lookup "EUR" = some 1 ∧ given.lookup "USD" = some (Float.ofInt 2) := by
  intro rates data
  have hfits : (Json.obj data).FitsFloats := by
    have hsmall : FitsFloat 2 ∧ FitsFloat 7 :=
      ⟨fitsFloat_of_lt (by decide), fitsFloat_of_lt (by decide)⟩
    simp [data, rates, hsmall]
  refine ⟨hfits, ?_⟩
  obtain ⟨-, hrates, hgiven⟩ :=
    (Feed.fiat fiatName fiatUrl (.real 5)).rateTable_keepsRates hfits
  obtain ⟨table, htable, hkeeps⟩ := hrates rates rfl
  obtain ⟨given, heq, -, hself, hothers⟩ :=
    (hgiven "eur" _ ⟨200, "", by decide, rfl⟩).2 table htable
  have hcodes : upperCode "eur" = "EUR" ∧ upperCode "Usd" = "USD" := by decide +kernel
  rw [hcodes.1] at hself hothers
  refine ⟨given, heq, hself, ?_⟩
  rw [hothers "USD" (by decide), hkeeps.lookup_eq_some_iff]
  refine ⟨[("usd", .float 1.5)], "Usd", .int 2, _, rfl, hcodes.2,
    .whole (by decide) (fitsFloat_of_lt (by decide)), ?_⟩
  -- Behind the pair that counts no other one is usable and has the same code.
  rintro ⟨key, value, x, hmem, hcode, hrate⟩
  obtain heq | hmem := List.mem_cons.mp hmem
  · cases heq
    cases hrate
  · cases List.mem_singleton.mp hmem
    exact absurd hcode (hcodes.1.trans_ne (by decide))

end Reckoner
