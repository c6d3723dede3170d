import Reckoner.Proofs.Feed.Batches
import Reckoner.Proofs.Feed.Rates

/-!
# What a feed cannot read

Whatever becomes of a request, a feed gives a table, prices, a price or nothing, with one exception:
a whole number that is too large for a float, in the place of a rate or of a price that is asked
for.

* `addRates_without` — a member that is passed over might as well not be there.
* `Feed.rateTable_eq_error_iff`, `Feed.fetchPrices_eq_error_iff`, `Feed.price_eq_error_iff` — when a
  feed cannot read a reply.
* `Feed.rateTable_without` — what is no rate does not affect the others.
* `Feed.reads_unless_tooLarge` — **a feed reads every reply without such a number.**
-/

namespace Reckoner

open Reckoner.Number

/-- **A member that is passed over might as well not be there.** -/
theorem addRates_without (table : RateTable) (before after : Members) (key : String) {value : Json}
    (h : usable? value = .ok none) :
    addRates table (before ++ (key, value) :: after) = addRates table (before ++ after) := by
  simp only [addRates_eq_addReads, List.map_append, List.map_cons, h, addReads_append]
  rfl

/-- What is made of something that is read fails only if the reading fails. -/
theorem map_eq_error_iff {α β : Type} {g : α → β} {read : Except TooLarge α} {e : TooLarge} :
    read.map g = .error e ↔ read = .error e := by
  cases read <;> simp [Except.map]

/-- **The rates of a reply cannot be read exactly if one of the values is too large.** -/
theorem ratesIn_eq_error_iff {data : Members} {e : TooLarge} : ratesIn data = .error e ↔
    ∃ rates key value, data.lookup "rates" = some (.obj rates) ∧ (key, value) ∈ rates ∧
      IsTooLarge value := by
  unfold ratesIn
  split
  · next rates hrates =>
    rw [map_eq_error_iff, addRates_eq_error_iff, hrates]
    simp
  · next hnone =>
    refine iff_of_false (by simp) ?_
    rintro ⟨rates, key, value, hrates, -⟩
    exact hnone rates hrates

namespace Feed

variable (f : Feed) (reply : Reply)

/-- What fails to be read off a reply fails to be read off the object that it carries. -/
theorem exists_carries_and_iff {reply : Reply} {data : Members} (h : reply.Carries data)
    (P : Members → Prop) : (∃ other, reply.Carries other ∧ P other) ↔ P data :=
  ⟨fun ⟨_, hother, hP⟩ => h.unique hother ▸ hP, fun hP => ⟨data, h, hP⟩⟩

/-- **A rate table cannot be read exactly if one of its values is too large.** -/
theorem rateTable_eq_error_iff (code : String) {e : TooLarge} : f.rateTable code reply = .error e ↔
    ∃ data, reply.Carries data ∧ ∃ rates key value, data.lookup "rates" = some (.obj rates) ∧
      (key, value) ∈ rates ∧ IsTooLarge value := by
  by_cases hcarries : ∃ data, reply.Carries data
  · obtain ⟨data, hdata⟩ := hcarries
    rw [f.rateTable_of_carries hdata, map_eq_error_iff, ratesIn_eq_error_iff,
      exists_carries_and_iff hdata]
  · have hnot := not_exists.mp hcarries
    rw [(f.read_of_not_carries hnot).1]
    exact iff_of_false (by simp) fun ⟨data, hdata, _⟩ => hnot data hdata

/-- **Prices cannot be read exactly if the quote of an asset that is asked for is too large.** -/
theorem prices_eq_error_iff (names : List String) {e : TooLarge} :
    f.prices names reply = .error e ↔
      ∃ data, reply.Carries data ∧ ∃ name ∈ names, ∃ v, IsQuote data name v ∧ IsTooLarge v := by
  by_cases hcarries : ∃ data, reply.Carries data
  · obtain ⟨data, hdata⟩ := hcarries
    rw [f.prices_of_carries hdata, map_eq_error_iff, addPrices_eq_error_iff,
      exists_carries_and_iff hdata]
  · have hnot := not_exists.mp hcarries
    rw [(f.read_of_not_carries hnot).2]
    exact iff_of_false (by simp) fun ⟨data, hdata, _⟩ => hnot data hdata

@[inherit_doc prices_eq_error_iff]
theorem fetchPrices_eq_error_iff (names : List String) {e : TooLarge} :
    (f.fetchPrices (fun _ => reply) names).1 = .error e ↔
      ∃ data, reply.Carries data ∧ ∃ name ∈ names, ∃ v, IsQuote data name v ∧ IsTooLarge v := by
  unfold fetchPrices
  cases names with
  | nil => exact iff_of_false (by simp) (by simp)
  | cons first rest => exact f.prices_eq_error_iff reply (first :: rest)

/-- **The price of an asset cannot be read exactly if its quote is too large.** -/
theorem price_eq_error_iff (name : String) {e : TooLarge} : f.price name reply = .error e ↔
    ∃ data, reply.Carries data ∧ ∃ v, IsQuote data name v ∧ IsTooLarge v := by
  by_cases hcarries : ∃ data, reply.Carries data
  · obtain ⟨data, hdata⟩ := hcarries
    rw [f.price_of_carries hdata, priceIn_eq_error_iff, exists_carries_and_iff hdata]
  · have hnot := not_exists.mp hcarries
    have hnone : f.price name reply = .ok none := by
      unfold price
      rw [(f.read_of_not_carries hnot).2]
      rfl
    rw [hnone]
    exact iff_of_false (by simp) fun ⟨data, hdata, _⟩ => hnot data hdata

/-- **What is no rate does not affect the others**: two replies with the same rates but for a value
    that is passed over give the same table. -/
theorem rateTable_without (code : String) {reply reply' : Reply} {data data' before after : Members}
    {key : String} {value : Json} (hdata : reply.Carries data) (hdata' : reply'.Carries data')
    (hrates : data.lookup "rates" = some (.obj (before ++ (key, value) :: after)))
    (hrates' : data'.lookup "rates" = some (.obj (before ++ after)))
    (hrate : ∀ x, ¬ IsRate value x) (hlarge : ¬ IsTooLarge value) :
    f.rateTable code reply = f.rateTable code reply' := by
  have hvalue : usable? value = .ok none := usable?_eq_none_iff.mpr ⟨hrate, hlarge⟩
  rw [f.rateTable_of_carries hdata, f.rateTable_of_carries hdata', ratesIn, ratesIn, hrates,
    hrates']
  dsimp only
  rw [addRates_without [] before after key hvalue]

/-- **A feed reads every reply**, whether there is one or not, whatever its status is and whatever
    it carries, with one exception: it cannot read a whole number that does not fit a float, if this
    stands among the rates, or as the price of an asset that is asked for.  A value among the rates
    that is no rate for another reason does not affect the others. -/
theorem reads_unless_tooLarge :
    (∀ code, f.rateTable code reply = .error ⟨⟩ ↔
      ∃ data, reply.Carries data ∧ ∃ rates key value, data.lookup "rates" = some (.obj rates) ∧
        (key, value) ∈ rates ∧ IsTooLarge value) ∧
    (∀ names, (f.fetchPrices (fun _ => reply) names).1 = .error ⟨⟩ ↔
      ∃ data, reply.Carries data ∧ ∃ name ∈ names, ∃ v, IsQuote data name v ∧ IsTooLarge v) ∧
    (∀ name, f.price name reply = .error ⟨⟩ ↔
      ∃ data, reply.Carries data ∧ ∃ v, IsQuote data name v ∧ IsTooLarge v) ∧
    ∀ code data data' before key value after reply', reply.Carries data → reply'.Carries data' →
      data.lookup "rates" = some (.obj (before ++ (key, value) :: after)) →
      data'.lookup "rates" = some (.obj (before ++ after)) →
      (∀ x, ¬ IsRate value x) → ¬ IsTooLarge value →
      f.rateTable code reply = f.rateTable code reply' := by
  refine ⟨fun code => f.rateTable_eq_error_iff reply code,
    fun names => f.fetchPrices_eq_error_iff reply names,
    fun name => f.price_eq_error_iff reply name,
    ?_⟩
  intro code data data' before key value after reply' hdata hdata' hrates hrates' hrate hlarge
  exact f.rateTable_without code hdata hdata' hrates hrates' hrate hlarge

/-- A rate and a price of `2 ^ 1024` cannot be read, and what stands beside them is lost. -/
theorem not_read_tooLarge :
    let rates : Members := [("GBP", .float 0.5), ("USD", .int (2 ^ 1024))]
    let quotes : Members := [("bitcoin", .obj [("usd", .int (2 ^ 1024))])]
    (Feed.fiat fiatName fiatUrl (.real 5)).rateTable "EUR"
        (.response 200 "" (.ok (.obj [("rates", .obj rates)]))) = .error ⟨⟩ ∧
      (Feed.crypto [] cryptoName cryptoUrl (.str "") (.real 5)).price "bitcoin"
        (.response 200 "" (.ok (.obj quotes))) = .error ⟨⟩ := by
  intro rates quotes
  have hlarge : IsTooLarge (.int (2 ^ 1024)) := by
    have hnat : ∀ k : Nat, ((2 : Int) ^ k).natAbs = 2 ^ k := fun k => by rw [Int.natAbs_pow]; rfl
    refine ⟨2 ^ 1024, rfl, ?_⟩
    rw [FitsFloat, hnat, not_lt]
    exact overflowBound_le_two_pow
  constructor
  · rw [rateTable_eq_error_iff]
    exact ⟨_, ⟨200, "", by decide, rfl⟩, rates, "USD", _, rfl, .tail _ (.head _), hlarge⟩
  · rw [price_eq_error_iff]
    exact ⟨_, ⟨200, "", by decide, rfl⟩, _, ⟨_, rfl, rfl⟩, hlarge⟩

end Feed

end Reckoner
