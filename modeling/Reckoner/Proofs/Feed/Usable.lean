import Reckoner.Proofs.Feed.Readings

/-!
# What a reply brings is usable

Whatever JSON a feed replies, the rates and prices that are read off it are finite and above zero,
and a rate table has its own currency at one.

* `IsUsable`, `IsSoundTable` — rates and prices, and rate tables, that can be calculated with.
* `isUsable_of_usable?` — a JSON value that is taken for a rate or price.
* `usable_addRates` — the rates of a reply.
* `Feed.isSoundTable_of_rateTable`, `Feed.isUsable_of_price` — what a feed brings.
-/

namespace Reckoner

open Reckoner.Number

/-- A rate or price that can be calculated with: it is finite and above zero. -/
structure IsUsable (x : Float) : Prop where
  isFinite : x.isFinite = true
  pos : x > 0

/-- A rate table that can be calculated with: its own currency is at one, and every rate is
    usable. -/
structure IsSoundTable (base : String) (table : RateTable) : Prop where
  base_eq : table.lookup base = some 1
  usable : ∀ code rate, (code, rate) ∈ table → IsUsable rate

theorem isUsable_one : IsUsable 1 := ⟨rfl, by decide⟩

/-- **A JSON value that is taken for a rate or price is usable.** -/
theorem isUsable_of_usable? {value : Json} {x : Float} (h : usable? value = .ok (some x)) :
    IsUsable x := by
  cases usable?_eq_some_iff.mp h with
  | @whole n hn hfits =>
    have hinf : (Float.ofInt n).isInf = false :=
      Bool.eq_false_iff.mpr fun hinf => (isInf_ofInt_iff n).mp hinf hfits
    obtain ⟨hfinite, hpos⟩ := isFinite_and_pos_of_ofInt hn hinf
    exact ⟨hfinite, hpos⟩
  | real hfinite hpos => exact ⟨hfinite, hpos⟩

/-- **The rates that are added are usable**, whatever else stands among the members. -/
theorem usable_addRates {members : Members} {table result : RateTable}
    (h : addRates table members = .ok result)
    (htable : ∀ code rate, (code, rate) ∈ table → IsUsable rate) :
    ∀ code rate, (code, rate) ∈ result → IsUsable rate := by
  induction members generalizing table with
  | nil =>
    cases h
    exact htable
  | cons member rest ih =>
    obtain ⟨name, value⟩ := member
    unfold addRates at h
    cases hvalue : usable? value with
    | error e => simp [hvalue, bind, Except.bind] at h
    | ok x? =>
      rw [hvalue] at h
      cases x? with
      | none => exact ih h htable
      | some x =>
        refine ih h fun code rate hmem => ?_
        -- Every entry of the longer table is the new one or was there before it.
        obtain heq | hmem := Entries.eq_or_mem_of_mem_put hmem
        · cases heq
          exact isUsable_of_usable? hvalue
        · exact htable code rate hmem

/-- The rates of a reply are usable. -/
theorem usable_ratesIn {data : Members} {table : RateTable} (h : ratesIn data = .ok (some table)) :
    ∀ code rate, (code, rate) ∈ table → IsUsable rate := by
  unfold ratesIn at h
  split at h
  · next rates _ =>
    cases hrates : addRates [] rates with
    | error e => simp [hrates, Except.map] at h
    | ok result =>
      rw [hrates] at h
      cases h
      exact usable_addRates hrates (by simp)
  · cases h

/-- The price in a reply is usable. -/
theorem isUsable_of_priceIn {data : Members} {name : String} {x : Float}
    (h : priceIn data name = .ok (some x)) : IsUsable x := by
  unfold priceIn at h
  split at h
  · exact isUsable_of_usable? h
  · cases h

namespace Feed

/-- **A rate table that a feed brings is sound.** -/
theorem isSoundTable_of_rateTable {f : Feed} {code : String} {reply : Reply} {table : RateTable}
    (h : f.rateTable code reply = .ok (some table)) : IsSoundTable (upperCode code) table := by
  unfold rateTable at h
  split at h
  · cases h
  · next data _ =>
    cases hrates : ratesIn data with
    | error e => simp [hrates, bind, Except.bind] at h
    | ok table? =>
      rw [hrates] at h
      cases table? with
      | none => cases h
      | some rates =>
        -- The currency itself is put into the table last, whatever its rate in the reply.
        cases h
        refine ⟨Entries.lookup_put_self _ _ _, fun code rate hmem => ?_⟩
        obtain heq | hmem := Entries.eq_or_mem_of_mem_put hmem
        · cases heq
          exact isUsable_one
        · exact usable_ratesIn hrates code rate hmem

/-- **A price that a feed brings is usable.** -/
theorem isUsable_of_price {f : Feed} {name : String} {reply : Reply} {x : Float}
    (h : f.price name reply = .ok (some x)) : IsUsable x := by
  unfold price prices at h
  split at h
  · cases h
  · next data _ =>
    cases hprice : priceIn data name with
    | error e => simp [addPrices, hprice, bind, Except.bind, Except.map] at h
    | ok x? =>
      cases x? with
      | none => simp [addPrices, hprice, bind, Except.bind, Except.map, pure, Except.pure] at h
      | some y =>
        have hy : y = x := by
          simpa [addPrices, hprice, bind, Except.bind, Except.map, pure, Except.pure] using h
        exact hy ▸ isUsable_of_priceIn hprice

end Feed

end Reckoner
