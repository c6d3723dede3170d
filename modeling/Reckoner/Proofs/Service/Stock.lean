import Reckoner.Proofs.Cache.Yields
import Reckoner.Proofs.Feed.Usable
import Reckoner.Proofs.Service.Keeping

/-!
# What the caches of a service hold

Whatever the feeds reply, and in whatever order jobs, cancellations, clearings and the passing of
time follow each other, the caches hold rates and prices that can be calculated with, under the
codes of listed assets.

* `CacheRun.Holds` — everything that is stored in a run or to come in it has a property.
* `Holds.call`, `Holds.passTo` — calls and the passing of time keep it.
* `Settings.ofFeeds` — settings under which both rates and prices come from feeds.
* `Service.IsSoundlyStocked` — the invariant of both caches.
* `Service.run_stocksSoundRates` — it holds after every run.
-/

namespace Reckoner

/-! ### Runs of a cache -/

/-- A fetch ends with nothing but what it would bring. -/
theorem Delivery.value_of_ending {ν : Type} {allowance : Span} {now : Rat} {d : Delivery ν} {v : ν}
    (h : d.ending allowance now = some (some v)) : d.value = some v := by
  obtain ⟨⟨due, value⟩, hend, rfl⟩ := Option.map_eq_some_iff.mp h
  rcases Delivery.end?_cases hend with ⟨t, -, -, hvalue, -⟩ | ⟨-, hnone⟩
  · exact hvalue.symm
  · cases hnone

namespace CacheRun

variable {ω ν : Type}

/-- **Everything that is stored in a run or to come in it has a property.** -/
structure Holds (Q : String → ν → Prop) (r : CacheRun ω ν) : Prop where
  stored : ∀ key e, (key, e) ∈ r.cache.entries → Q key e.value
  coming : ∀ a ∈ r.agenda, ∀ v, a.value = some v → Q a.key v

variable {Q : String → ν → Prop} {r : CacheRun ω ν}

theorem holds_start (lifetime allowance : Span) :
    (start lifetime allowance : CacheRun ω ν).Holds Q :=
  ⟨by simp [start, RateCache.empty], by simp [start]⟩

/-- What is stored and to come has a weaker property, too. -/
theorem Holds.mono {Q Q' : String → ν → Prop} (h : r.Holds Q) (hQ : ∀ key v, Q key v → Q' key v) :
    r.Holds Q' :=
  ⟨fun key e he => hQ key e.value (h.stored key e he),
    fun a ha v hv => hQ a.key v (h.coming a ha v hv)⟩

/-- A call keeps the property if what its fetch brings has it. -/
theorem Holds.call (h : r.Holds Q) (w : ω) {key : String} {d : Delivery ν}
    (hd : ∀ v, d.value = some v → Q key v) : (r.call w key d).1.Holds Q where
  stored other e he := h.stored other e (r.entries_call w key d ▸ he)
  coming a ha v hv := by
    rcases mem_agenda_call ha with ha | ⟨-, rfl, hending⟩
    · exact h.coming a ha v hv
    · rw [hv] at hending
      exact hd v (Delivery.value_of_ending hending)

/-- Flights that end store what they bring, and nothing else. -/
theorem stored_arriveAll {due : List (Arrival ν)}
    (hstored : ∀ key e, (key, e) ∈ r.cache.entries → Q key e.value)
    (hdue : ∀ a ∈ due, ∀ v, a.value = some v → Q a.key v) :
    ∀ key e, (key, e) ∈ (r.arriveAll due).1.cache.entries → Q key e.value := by
  induction due generalizing r with
  | nil => exact hstored
  | cons a rest ih =>
    refine ih (r := (r.arrive a).1) ?_ fun b hb => hdue b (.tail a hb)
    intro key e he
    -- Only a value that is brought is stored, under the key that it is brought for.
    cases hf : r.cache.flights.lookup a.key with
    | none =>
      simp only [arrive, RateCache.settle_of_no_flight r.cache a.due a.value hf] at he
      exact hstored key e he
    | some f =>
      rw [arrive_of_flight hf] at he
      cases hv : a.value with
      | none =>
        rw [hv] at he
        exact hstored key e he
      | some v =>
        rw [hv] at he
        rcases Entries.eq_or_mem_of_mem_put he with heq | he
        · cases heq
          exact hdue a List.mem_cons_self v hv
        · exact hstored key e he

/-- **The passing of time keeps the property.** -/
theorem Holds.passTo (h : r.Holds Q) (moment : Rat) : (r.passTo moment).1.Holds Q where
  stored := stored_arriveAll (r := { r with agenda := _ }) h.stored fun a ha =>
    h.coming a (List.takeWhile_subset _ ha)
  coming a ha := by
    rw [agenda_passTo] at ha
    exact h.coming a (List.dropWhile_subset _ ha)

theorem Holds.cancel [BEq ω] (h : r.Holds Q) (w : ω) :
    ({ r with cache := r.cache.cancel w } : CacheRun ω ν).Holds Q :=
  ⟨h.stored, h.coming⟩

theorem Holds.clear (h : r.Holds Q) : ({ r with cache := r.cache.clear } : CacheRun ω ν).Holds Q :=
  ⟨by simp, h.coming⟩

end CacheRun

/-! ### Services with feeds -/

/-- Settings under which both rates and prices come from feeds. -/
def Settings.ofFeeds (fx crypto : Feed) (fiatLifetime cryptoLifetime timeout : Float) : Settings :=
  ⟨.feed fx, crypto, fiatLifetime, cryptoLifetime, timeout⟩

namespace Service

variable {net : Network} {s : Service} {fx : Feed}

/-- A fetch brings what was read off a reply, and nothing where reading it failed. -/
theorem eq_ok_of_join {ε α : Type} {x : Except ε (Option α)} {v : α}
    (h : x.toOption.join = some v) : x = .ok (some v) := by
  cases x with
  | error e => cases h
  | ok v? => exact congrArg _ h

/-- What a fetch of rates brings is a sound table. -/
theorem isSoundTable_ratesFetch (hs : s.settings.fiat = .feed fx) {code : String}
    (hcode : (Asset.fiat? code).isSome = true) {table : RateTable}
    (h : (s.ratesFetch net code).2.value = some table) : IsSoundTable code table := by
  obtain ⟨a, ha⟩ := Option.isSome_iff_exists.mp hcode
  obtain ⟨hmem, rfl⟩ := Asset.fiat?_eq_some ha
  unfold ratesFetch at h
  rw [hs] at h
  have hsound := Feed.isSoundTable_of_rateTable (eq_ok_of_join h)
  rwa [(Asset.fiat?_code a hmem).2.2] at hsound

/-- What a fetch of a price brings is usable. -/
theorem isUsable_priceFetch {code : String} {price : Float}
    (h : (s.priceFetch net code).2.value = some price) : IsUsable price :=
  Feed.isUsable_of_price (eq_ok_of_join h)

/-- **The caches of a service hold what can be calculated with**: rate tables under the codes of
    fiat currencies, and prices under those of crypto assets. -/
structure IsSoundlyStocked (fx : Feed) (s : Service) : Prop where
  fiat_eq : s.settings.fiat = .feed fx
  fiat : s.fiat.Holds fun code table =>
    (Asset.fiat? code).isSome = true ∧ IsSoundTable code table
  crypto : s.crypto.Holds fun code price =>
    (Asset.crypto? code).isSome = true ∧ IsUsable price

/-- **Lookups and arrivals keep the caches sound.** -/
theorem inside_isSoundlyStocked (net : Network) (fx : Feed) :
    Inside net (IsSoundlyStocked fx) where
  congr h hsettings hfiat hcrypto :=
    -- A lookup adds a fetch of listed code to one cache, and every arrival was such a fetch.
    ⟨hsettings ▸ h.fiat_eq, hfiat ▸ h.fiat, hcrypto ▸ h.crypto⟩
  look id l hl h := by
    cases l with
    | rates code =>
      rw [look_rates]
      exact ⟨h.fiat_eq, h.fiat.call id fun table htable =>
        ⟨hl, isSoundTable_ratesFetch h.fiat_eq hl htable⟩, h.crypto⟩
    | price code =>
      rw [look_price]
      exact ⟨h.fiat_eq, h.fiat, h.crypto.call id fun price hprice =>
        ⟨hl, isUsable_priceFetch hprice⟩⟩
  landTables moment h := ⟨h.fiat_eq, h.fiat.passTo moment, h.crypto⟩
  landPrices moment h := ⟨h.fiat_eq, h.fiat, h.crypto.passTo moment⟩
  cancel id h := ⟨h.fiat_eq, h.fiat.cancel id, h.crypto.cancel id⟩
  clear h := ⟨h.fiat_eq, h.fiat.clear, h.crypto.clear⟩

theorem isSoundlyStocked_withLifetimes (fx crypto : Feed) (f c timeout : Float)
    (fiatSpan cryptoSpan : Span) :
    (withLifetimes (.ofFeeds fx crypto f c timeout) fiatSpan cryptoSpan).IsSoundlyStocked fx :=
  ⟨rfl, CacheRun.holds_start _ _, CacheRun.holds_start _ _⟩

/-- The caches are sound after every run. -/
theorem isSoundlyStocked_run (fx crypto : Feed) (f c timeout : Float) (fiatSpan cryptoSpan : Span)
    (net : Network) (events : List Event) :
    ((withLifetimes (.ofFeeds fx crypto f c timeout) fiatSpan cryptoSpan).run net
      events).1.IsSoundlyStocked fx :=
  (inside_isSoundlyStocked net fx).kept.run
    (isSoundlyStocked_withLifetimes fx crypto f c timeout fiatSpan cryptoSpan) events

/-- **Only sound rates are ever cached.** After every run of a service with feeds, over any network,
    every entry for rates has the code of a fiat currency as its key and a table that has this
    currency at exactly one and every code in it at a finite rate above zero; and every entry for
    prices has the code of a crypto asset as its key and a finite price above zero. -/
theorem run_stocksSoundRates (fx crypto : Feed) (f c timeout : Float)
    (fiatSpan cryptoSpan : Span) (net : Network) (events : List Event) :
    let s := ((withLifetimes (.ofFeeds fx crypto f c timeout) fiatSpan cryptoSpan).run net events).1
    (∀ code e, (code, e) ∈ s.fiat.cache.entries →
      (Asset.fiat? code).isSome = true ∧ e.value.lookup code = some 1 ∧
        ∀ other rate, (other, rate) ∈ e.value → rate.isFinite = true ∧ rate > 0) ∧
      ∀ code e, (code, e) ∈ s.crypto.cache.entries →
        (Asset.crypto? code).isSome = true ∧ e.value.isFinite = true ∧ e.value > 0 := by
  intro s
  have hs := isSoundlyStocked_run fx crypto f c timeout fiatSpan cryptoSpan net events
  refine ⟨?_, ?_⟩
  · intro code e he
    obtain ⟨hcode, htable⟩ := hs.fiat.stored code e he
    refine ⟨hcode, htable.base_eq, fun other rate hrate => ?_⟩
    have husable := htable.usable other rate hrate
    exact ⟨husable.isFinite, husable.pos⟩
  · intro code e he
    obtain ⟨hcode, hprice⟩ := hs.crypto.stored code e he
    exact ⟨hcode, hprice.isFinite, hprice.pos⟩

end Service

end Reckoner
