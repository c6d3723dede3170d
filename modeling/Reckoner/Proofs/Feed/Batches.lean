import Reckoner.Proofs.Feed.Additions
import Reckoner.Proofs.Feed.Readings

/-!
# Prices of many assets at once

Asking for many assets at once and asking for each of them gives the same prices, as long as the
replies carry the same object.

* `addPrices_eq_error_iff` — when the prices cannot be read.
* `latestRead_eq` — what is read under a name is the price of the asset.
* `Feed.price_of_carries` — asking for one asset reads its price.
* `PricesOf`, `Feed.exists_fetchPrices` — the prices of exactly the assets that are asked for.
* `Feed.fetchPrices_agrees` — **asking for many assets gives what asking for each of them gives**,
  in any order, with repetitions, and in parts.
-/

namespace Reckoner

open Reckoner.Number

variable {data : Members} {prices : Entries Float} {names : List String} {name : String}

/-! ### Adding prices -/

/-- **Prices cannot be read exactly if the quote of an asset is too large.** -/
theorem addPrices_eq_error_iff {e : TooLarge} : addPrices data prices names = .error e ↔
    ∃ name ∈ names, ∃ v, IsQuote data name v ∧ IsTooLarge v := by
  rw [addPrices_eq_addReads, addReads_eq_error_iff]
  simp [priceIn_eq_error_iff]

/-- **What is read under a name is the price of the asset**, however often it is asked for. -/
theorem latestRead_eq {price? : Option Float} (hprice : priceIn data name = .ok price?) :
    latestRead name (names.map fun n => (n, priceIn data n)) =
      if name ∈ names then price? else none := by
  induction names with
  | nil => rfl
  | cons first rest ih =>
    rw [List.map_cons, latestRead, ih]
    by_cases hname : first = name
    · subst hname
      rw [hprice, if_pos rfl, if_pos List.mem_cons_self]
      split <;> simp [Except.toOption]
    · rw [if_neg hname, Option.or_none]
      simp [Ne.symm hname]

/-! ### Asking for prices -/

namespace Feed

/-- **Asking for one asset reads its price.** -/
theorem price_of_carries (f : Feed) {reply : Reply} (h : reply.Carries data) (name : String) :
    f.price name reply = priceIn data name := by
  unfold price
  rw [f.prices_of_carries h, addPrices_eq_addReads, List.map_singleton]
  rcases priceIn data name with e | _ | x
  · rfl
  · rfl
  · show Except.ok (List.lookup name [(name, x)]) = _
    rw [List.lookup_cons_self]

/-- Where nothing is asked for, there are no prices; else they are read off the reply. -/
theorem fetchPrices_of_carries (f : Feed) (send : Request → Reply)
    (hsend : ∀ request, (send request).Carries data) (names : List String) :
    (f.fetchPrices send names).1 = (addPrices data [] names).map some := by
  unfold fetchPrices
  cases names with
  | nil => rfl
  | cons first rest => exact f.prices_of_carries (hsend _) _

end Feed

/-- **Prices of exactly the assets that are asked for**, as far as they have one. -/
structure PricesOf (data : Members) (names : List String) (prices : Entries Float) : Prop where
  nodup : prices.keys.Nodup
  lookup_eq : ∀ name price?, priceIn data name = .ok price? →
    prices.lookup name = if name ∈ names then price? else none

/-- A price can be read if the whole numbers of the reply fit. -/
theorem exists_priceIn (hfits : (Json.obj data).FitsFloats) (name : String) :
    ∃ price?, priceIn data name = .ok price? := by
  cases hprice : priceIn data name with
  | error e =>
    obtain ⟨v, hv, hlarge⟩ := priceIn_eq_error_iff.mp hprice
    exact absurd hlarge (hfits.not_isTooLarge (isQuote_within hv))
  | ok price? => exact ⟨price?, rfl⟩

namespace Feed

/-- **A feed gives the prices of exactly the assets that it is asked for.** -/
theorem exists_fetchPrices (f : Feed) (hfits : (Json.obj data).FitsFloats) (send : Request → Reply)
    (hsend : ∀ request, (send request).Carries data) (names : List String) :
    ∃ prices, (f.fetchPrices send names).1 = .ok (some prices) ∧ PricesOf data names prices := by
  rw [f.fetchPrices_of_carries send hsend]
  cases hprices : addPrices data [] names with
  | error e =>
    obtain ⟨name, -, v, hv, hlarge⟩ := addPrices_eq_error_iff.mp hprices
    exact absurd hlarge (hfits.not_isTooLarge (isQuote_within hv))
  | ok prices =>
    rw [addPrices_eq_addReads] at hprices
    refine ⟨prices, rfl, nodup_addReads hprices List.nodup_nil, fun name price? hprice => ?_⟩
    rw [lookup_addReads hprices, List.lookup_nil, Option.or_none, latestRead_eq hprice]

/-- **Asking for many assets gives what asking for each of them gives**, where every reply carries
    the same object and its whole numbers fit: the prices are those of the assets that are asked for
    and have one.  So they are the same for every other list of the same assets, and they are the
    prices of two lists taken together that have these assets between them. -/
theorem fetchPrices_agrees (f : Feed) (hfits : (Json.obj data).FitsFloats) (send : Request → Reply)
    (hsend : ∀ request, (send request).Carries data) (hnames : names ≠ []) :
    ∃ prices, f.fetchPrices send names = (.ok (some prices), [f.pricesRequest names]) ∧
      prices.keys.Nodup ∧
      (∀ name, ∃ price?, f.price name (send (f.pricesRequest [name])) = .ok price? ∧
        prices.lookup name = if name ∈ names then price? else none) ∧
      (∀ others, (∀ name, name ∈ others ↔ name ∈ names) →
        ∃ same, (f.fetchPrices send others).1 = .ok (some same) ∧ same.keys.Nodup ∧
          ∀ name, same.lookup name = prices.lookup name) ∧
      ∀ front back, (∀ name, name ∈ names ↔ name ∈ front ∨ name ∈ back) →
        ∃ left right, (f.fetchPrices send front).1 = .ok (some left) ∧
          (f.fetchPrices send back).1 = .ok (some right) ∧
          ∀ name, prices.lookup name = (left.lookup name).or (right.lookup name) ∧
            prices.lookup name = (right.lookup name).or (left.lookup name) := by
  obtain ⟨prices, hprices, hof⟩ := f.exists_fetchPrices hfits send hsend names
  have hsent : (f.fetchPrices send names).2 = [f.pricesRequest names] := by
    unfold fetchPrices
    rw [if_neg (by simpa using hnames)]
  refine ⟨prices, Prod.ext hprices hsent, hof.nodup, fun name => ?_, fun others hothers => ?_,
    fun front back hparts => ?_⟩
  · obtain ⟨price?, hprice⟩ := exists_priceIn hfits name
    exact ⟨price?, (f.price_of_carries (hsend _) name).trans hprice,
      hof.lookup_eq name price? hprice⟩
  · obtain ⟨same, hsame, hof'⟩ := f.exists_fetchPrices hfits send hsend others
    refine ⟨same, hsame, hof'.nodup, fun name => ?_⟩
    obtain ⟨price?, hprice⟩ := exists_priceIn hfits name
    rw [hof.lookup_eq name price? hprice, hof'.lookup_eq name price? hprice]
    simp only [hothers]
  · obtain ⟨left, hleft, hof₁⟩ := f.exists_fetchPrices hfits send hsend front
    obtain ⟨right, hright, hof₂⟩ := f.exists_fetchPrices hfits send hsend back
    refine ⟨left, right, hleft, hright, fun name => ?_⟩
    obtain ⟨price?, hprice⟩ := exists_priceIn hfits name
    rw [hof.lookup_eq name price? hprice, hof₁.lookup_eq name price? hprice,
      hof₂.lookup_eq name price? hprice]
    -- A name of the whole is in one part, or in both.
    simp only [hparts]
    by_cases hfront : name ∈ front <;> by_cases hback : name ∈ back <;> simp [hfront, hback]

/-- Two assets are asked for, one of them twice, and one of them has no price. -/
theorem fetchPrices_agrees_twice :
    let data : Members := [("bitcoin", .obj [("usd", .int 64000)]), ("ethereum", .obj [])]
    let feed := Feed.crypto [] cryptoName cryptoUrl (.str "") (.real 5)
    let reply : Reply := .response 200 "" (.ok (.obj data))
    (Json.obj data).FitsFloats ∧ (∀ _ : Request, reply.Carries data) ∧
      ["bitcoin", "ethereum", "bitcoin"] ≠ [] ∧
        ∃ prices, (feed.fetchPrices (fun _ => reply) ["bitcoin", "ethereum", "bitcoin"]).1 =
            .ok (some prices) ∧
          prices.lookup "bitcoin" = some (Float.ofInt 64000) ∧ prices.lookup "ethereum" = none := by
  intro data feed reply
  have hsmall : FitsFloat 64000 := fitsFloat_of_lt (by decide)
  have hfits : (Json.obj data).FitsFloats := by simp [data, hsmall]
  have hcarries : reply.Carries data := ⟨200, "", by decide, rfl⟩
  refine ⟨hfits, fun _ => hcarries, by decide, ?_⟩
  obtain ⟨prices, hprices, -, hsingle, -⟩ :=
    feed.fetchPrices_agrees hfits (fun _ => reply) (fun _ => hcarries)
      (show ["bitcoin", "ethereum", "bitcoin"] ≠ [] by decide)
  refine ⟨prices, by rw [hprices], ?_, ?_⟩
  · obtain ⟨price?, hprice, hlookup⟩ := hsingle "bitcoin"
    have hquoted : priceIn data "bitcoin" = .ok (some (Float.ofInt 64000)) :=
      usable?_eq_some_iff.mpr (.whole (by decide) hsmall)
    cases ((feed.price_of_carries hcarries _).symm.trans hprice).symm.trans hquoted
    simpa using hlookup
  · obtain ⟨price?, hprice, hlookup⟩ := hsingle "ethereum"
    have hnone : priceIn data "ethereum" = .ok none := rfl
    cases ((feed.price_of_carries hcarries _).symm.trans hprice).symm.trans hnone
    simpa using hlookup

end Feed

end Reckoner
