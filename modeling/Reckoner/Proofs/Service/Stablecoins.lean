import Reckoner.Proofs.Cache.Runs
import Reckoner.Proofs.Service.Conversions

/-!
# The price of a stablecoin

The price of a stablecoin can always be calculated with: it is the one that its lookup yields, or
one dollar where the lookup yields none.  The one dollar is never stored, so that the next lookup
asks the feed again.

* `CacheRun.Barren` — no value is to be had for a key until it is fetched again.
* `Service.IsDelivered`, `kept_provided` — every price that is stored or on its way was read off a
  reply to a request that was sent for it.
* `Service.Unpriced`, `kept_unpriced` — once a lookup has found no price, none is to be had until a
  request for it is sent.
* `Service.IsStablePrice` — what a lookup of the price of a stablecoin is answered with.
* `Service.run_pricesStablecoins` — the price of a stablecoin, in every state that a run can reach.
* `Service.stablecoin_without_time_or_end` — no request is sent for a fetch that is allowed no time,
  and a fetch that is allowed any time may never end.
-/

namespace Reckoner

open Reckoner.Number

/-! ### Runs of a cache -/

namespace CacheRun

variable {ω ν : Type} {p : Forecast ν} {r : CacheRun ω ν} {key other : String} {w : ω}
  {d : Delivery ν}

/-- **No value is to be had for a key** until it is fetched again: none that is still good is
    stored, and what is on its way brings none. -/
structure Barren (r : CacheRun ω ν) (key : String) : Prop where
  peek_eq_none : r.peek key = none
  coming : ∀ a ∈ r.agenda, a.key = key → a.value = none

/-- A call that yields no value leaves none to be had. -/
theorem barren_call (h : r.cache.Expects p r.agenda) (hyield : r.yield? key d = some none) :
    (r.call w key d).1.Barren key := by
  unfold yield? at hyield
  split at hyield
  · cases hyield
  · next hpeek =>
    refine ⟨(r.peek_call w key d key).trans hpeek, fun a hcoming hkey => ?_⟩
    rcases mem_agenda_call hcoming with ha | ⟨hlacks, -, hending⟩
    · -- The key is in flight, and this is what its flight ends with.
      subst hkey
      rw [if_pos (h.flies a ha), coming?_of_mem h ha] at hyield
      exact Option.some.inj hyield
    · rw [if_neg (by simp [(lacks_iff.mp hlacks).2]), hending] at hyield
      exact Option.some.inj hyield

/-- Calls that do not fetch the key leave no value to be had. -/
theorem Barren.call (h : r.Barren key) (hother : other = key → r.lacks key = false) :
    (r.call w other d).1.Barren key := by
  refine ⟨(r.peek_call w other d key).trans h.peek_eq_none, fun a ha hkey => ?_⟩
  rcases mem_agenda_call ha with ha | ⟨hlacks, hsame, -⟩
  · exact h.coming a ha hkey
  · have heq : other = key := hsame.symm.trans hkey
    rw [heq, hother heq] at hlacks
    cases hlacks

/-- **The passing of time leaves no value to be had.** -/
theorem Barren.passTo (h : r.Barren key) {moment : Rat} (hle : r.now ≤ moment) :
    (r.passTo moment).1.Barren key where
  peek_eq_none := peek_passTo_eq_none hle h.peek_eq_none fun a ha =>
    h.coming a (List.takeWhile_subset _ ha)
  coming a ha := by
    rw [agenda_passTo] at ha
    exact h.coming a (List.dropWhile_subset _ ha)

theorem Barren.clear (h : r.Barren key) :
    ({ r with cache := r.cache.clear } : CacheRun ω ν).Barren key :=
  ⟨by simp [peek, RateCache.peek], h.coming⟩

end CacheRun

namespace Service

variable {net : Network} {o : Outlook} {fx crypto : Feed} {timeout : Float} {jobs : List Job}
  {s : Service} {code : String} {price : Float}

/-! ### Where prices come from -/

/-- **A price was delivered**: it is read off the reply to a request for it, which was sent after
    the ones before it, unless fetches are allowed no time. -/
def IsDelivered (net : Network) (fx crypto : Feed) (timeout : Float) (sent : List Request)
    (code : String) (price : Float) : Prop :=
  ∃ before : List Request,
    (¬ timeout ≤ 0 → before ++ [(Lookup.price code).request fx crypto] <+: sent) ∧
      crypto.price (Lookup.price code).subject
        (net.answer before ((Lookup.price code).request fx crypto)).reply = .ok (some price)

/-- What was delivered stays delivered when more requests are sent. -/
theorem IsDelivered.mono {sent after : List Request}
    (h : IsDelivered net fx crypto timeout sent code price) (hle : sent <+: after) :
    IsDelivered net fx crypto timeout after code price := by
  obtain ⟨before, hsent, hreply⟩ := h
  exact ⟨before, fun htimeout => (hsent htimeout).trans hle, hreply⟩

/-- What a fetch brings is read off the reply to its request. -/
theorem price_of_priceFetch (hs : s.IsFed fx crypto timeout)
    (h : (s.priceFetch net code).2.value = some price) :
    crypto.price (Lookup.price code).subject
      (net.answer s.sent ((Lookup.price code).request fx crypto)).reply = .ok (some price) := by
  rw [← hs.crypto_eq]
  exact eq_ok_of_join h

/-- **Every price was delivered** that is stored or on its way. -/
structure Provided (net : Network) (fx crypto : Feed) (timeout : Float) (s : Service) : Prop where
  fed : s.IsFed fx crypto timeout
  prices : s.crypto.Holds (IsDelivered net fx crypto timeout s.sent)

/-- Requests that are sent leave every price delivered. -/
theorem Provided.mono {s' : Service} (h : s.Provided net fx crypto timeout)
    (hfed : s'.IsFed fx crypto timeout) (hcrypto : s'.crypto = s.crypto)
    (hsent : s.sent <+: s'.sent) : s'.Provided net fx crypto timeout :=
  ⟨hfed, hcrypto ▸ h.prices.mono fun _ _ hdelivered => hdelivered.mono hsent⟩

/-- **A lookup leaves every price delivered**: it sends a request for the price that it fetches. -/
theorem Provided.look (h : s.Provided net fx crypto timeout) (id : Nat) {l : Lookup}
    (hl : l.IsListed) : (Service.look net id s l).Provided net fx crypto timeout := by
  have hsent : (Service.look net id s l).sent = _ := sent_look h.fed id hl
  have hle : s.sent <+: (Service.look net id s l).sent := hsent ▸ List.prefix_append _ _
  have hfed := (inside_isFed net fx crypto timeout).look id hl h.fed
  cases l with
  | rates code => exact h.mono hfed (by rw [look_rates]; rfl) hle
  | price code =>
    have hcrypto : (Service.look net id s (.price code)).crypto =
        (s.crypto.call id code (s.priceFetch net code).2).1 := by
      rw [look_price]
      rfl
    refine ⟨hfed, ?_, ?_⟩ <;> rw [hcrypto]
    · intro key e he
      rw [CacheRun.entries_call] at he
      exact (h.prices.stored key e he).mono hle
    · intro a ha v hv
      -- An arrival to come was there before the lookup, or is that of the fetch it has begun.
      rcases CacheRun.mem_agenda_call ha with ha | ⟨hlacks, hkey, hending⟩
      · exact (h.prices.coming a ha v hv).mono hle
      · rw [hv] at hending
        subst hkey
        refine ⟨s.sent, fun htimeout => ?_,
          price_of_priceFetch h.fed (Delivery.value_of_ending hending)⟩
        have hlacks : s.lacks (.price a.key) = true := hlacks
        rw [hsent, if_neg htimeout, if_pos hlacks]

/-- **Whatever happens leaves every price delivered.** -/
theorem kept_provided (net : Network) (fx crypto : Feed) (timeout : Float) :
    Kept net (Provided net fx crypto timeout) where
  begin s job h := begin_induction (h.mono { h.fed with } rfl List.prefix_rfl)
    (fun id _ hl h => h.look id hl) fun h => h.mono { h.fed with } rfl List.prefix_rfl
  passTo s moment hle h := by
    refine ⟨(inside_isFed net fx crypto timeout).kept.passTo s moment hle h.fed, ?_⟩
    rw [sent_passTo, passTo_eq]
    exact h.prices.passTo moment
  cancel s id h := ⟨{ h.fed with }, h.prices.cancel id⟩
  clear s h := ⟨{ h.fed with }, h.prices.clear⟩
  take s _ _ h := h.mono { h.fed with } rfl List.prefix_rfl
  note s request h := h.mono { h.fed with } rfl (List.prefix_append _ _)

theorem provided_withLifetimes (net : Network) (fx crypto : Feed) (f c timeout : Float)
    (fiatSpan cryptoSpan : Span) :
    (withLifetimes (.ofFeeds fx crypto f c timeout) fiatSpan cryptoSpan).Provided net fx crypto
      timeout :=
  ⟨isFed_withLifetimes fx crypto f c timeout _ _, CacheRun.holds_start _ _⟩

/-! ### After a lookup that found no price -/

/-- Lookups take no time. -/
theorem clock_look (h : s.crypto.now = s.now) (id : Nat) (l : Lookup) :
    (look net id s l).crypto.now = (look net id s l).now := by
  cases l with
  | rates code =>
    rw [look_rates]
    exact h.trans (CacheRun.now_call _ _ _ _).symm
  | price code =>
    rw [look_price]
    exact (CacheRun.now_call _ _ _ _).trans h

/-- **Both caches have one clock.** -/
theorem kept_clock (net : Network) : Kept net fun s => s.crypto.now = s.now where
  begin _ _ h := begin_induction (P := fun s => s.crypto.now = s.now) h
    (fun id l _ h => clock_look h id l) fun h => h
  passTo s moment _ _ := by
    rw [passTo_eq]
    rfl
  cancel _ _ h := h
  clear _ h := h
  take _ _ _ h := h
  note _ _ h := h

/-- **No price is to be had** for an asset until a request for it is sent, besides those that were
    sent at first. -/
structure Unpriced (fx crypto : Feed) (timeout : Float) (sent : List Request) (code : String)
    (s : Service) : Prop where
  fed : s.IsFed fx crypto timeout
  clock : s.crypto.now = s.now
  unless_sent : ∃ since, s.sent = sent ++ since ∧
    ((Lookup.price code).request fx crypto ∈ since ∨ s.crypto.Barren code)

variable {sent : List Request}

/-- **Lookups leave no price to be had** unless they send a request for it. -/
theorem Unpriced.look (h : s.Unpriced fx crypto timeout sent code) (htimeout : ¬ timeout ≤ 0)
    (id : Nat) {l : Lookup} (hl : l.IsListed) :
    (Service.look net id s l).Unpriced fx crypto timeout sent code := by
  obtain ⟨since, hsince, hnone⟩ := h.unless_sent
  have hsent : (Service.look net id s l).sent = _ := sent_look h.fed id hl
  rw [hsince, List.append_assoc] at hsent
  refine ⟨(inside_isFed net fx crypto timeout).look id hl h.fed, clock_look h.clock id l, _, hsent,
    ?_⟩
  rcases hnone with hmem | hbarren
  · exact .inl (List.mem_append_left _ hmem)
  · -- A price that was still missing is asked for by this lookup, or stays missing.
    by_cases hfetch : l = .price code ∧ s.lacks l = true
    · obtain ⟨rfl, hlacks⟩ := hfetch
      rw [if_neg htimeout, if_pos hlacks]
      exact .inl (List.mem_append_right _ (List.mem_singleton_self _))
    · refine .inr ?_
      cases l with
      | rates other =>
        rw [look_rates]
        exact hbarren
      | price other =>
        rw [look_price]
        refine hbarren.call fun heq => ?_
        subst heq
        simpa [lacks] using hfetch

/-- Only the requests and the cache of prices matter. -/
theorem Unpriced.congr {s' : Service} (h : s.Unpriced fx crypto timeout sent code)
    (hfed : s'.IsFed fx crypto timeout) (hfiat : s'.fiat = s.fiat) (hcrypto : s'.crypto = s.crypto)
    (hsent : s'.sent = s.sent) : s'.Unpriced fx crypto timeout sent code := by
  refine ⟨hfed, ?_, ?_⟩
  · rw [hcrypto, h.clock, now, now, hfiat]
  · rw [hsent, hcrypto]
    exact h.unless_sent

/-- **Whatever happens leaves no price to be had** unless a request for it is sent. -/
theorem kept_unpriced (net : Network) (fx crypto : Feed) {timeout : Float}
    (htimeout : ¬ timeout ≤ 0) (sent : List Request) (code : String) :
    Kept net (Unpriced fx crypto timeout sent code) where
  begin s job h := begin_induction (h.congr { h.fed with } rfl rfl rfl)
    (fun id _ hl h => h.look htimeout id hl) fun h => h.congr { h.fed with } rfl rfl rfl
  passTo s moment hle h := by
    refine ⟨(inside_isFed net fx crypto timeout).kept.passTo s moment hle h.fed,
      (kept_clock net).passTo s moment hle h.clock, ?_⟩
    obtain ⟨since, hsince, hnone⟩ := h.unless_sent
    refine ⟨since, (s.sent_passTo moment).trans hsince, hnone.imp_right fun hbarren => ?_⟩
    rw [passTo_eq]
    exact hbarren.passTo (h.clock.trans_le hle)
  cancel s id h := by
    obtain ⟨since, hsince, hnone⟩ := h.unless_sent
    exact ⟨{ h.fed with }, h.clock, since, hsince, hnone.imp_right fun hbarren =>
      ⟨hbarren.peek_eq_none, hbarren.coming⟩⟩
  clear s h := by
    obtain ⟨since, hsince, hnone⟩ := h.unless_sent
    exact ⟨{ h.fed with }, h.clock, since, hsince, hnone.imp_right CacheRun.Barren.clear⟩
  take s _ _ h := h.congr { h.fed with } rfl rfl rfl
  note s request h := by
    obtain ⟨since, hsince, hnone⟩ := h.unless_sent
    refine ⟨{ h.fed with }, h.clock, since ++ [request], ?_,
      hnone.imp_left (List.mem_append_left _)⟩
    rw [hsince, List.append_assoc]

/-- Lookups of other things leave no price to be had. -/
theorem barren_foldl_look_of_not_mem (h : s.crypto.Barren code) (id : Nat) {ls : List Lookup}
    (hnew : .price code ∉ ls) : (ls.foldl (look net id) s).crypto.Barren code := by
  induction ls generalizing s with
  | nil => exact h
  | cons l rest ih =>
    obtain ⟨hne, hrest⟩ := not_or.mp (mt List.mem_cons.mpr hnew)
    refine ih ?_ hrest
    cases l with
    | rates other =>
      rw [look_rates]
      exact h
    | price other =>
      rw [look_price]
      exact h.call fun heq => absurd (heq ▸ rfl) hne

/-- **Lookups of which one finds no price leave none to be had.** -/
theorem barren_foldl_look (hs : s.Keeps net o) (hfed : s.IsFed fx crypto timeout) (id : Nat)
    {ls : List Lookup} (hls : ∀ l ∈ ls, l.IsListed) (hnodup : ls.Nodup)
    (hmem : .price code ∈ ls) (hnone : s.priceNow? net code = some none) :
    (ls.foldl (look net id) s).crypto.Barren code := by
  induction ls generalizing s with
  | nil => cases hmem
  | cons l rest ih =>
    obtain ⟨hl, hrest⟩ := List.forall_mem_cons.mp hls
    obtain ⟨hnew, hnodup⟩ := List.nodup_cons.mp hnodup
    by_cases heq : l = .price code
    · subst heq
      have hbarren : (look net id s (.price code)).crypto.Barren code := by
        rw [look_price]
        exact CacheRun.barren_call hs.crypto hnone
      exact barren_foldl_look_of_not_mem hbarren id hnew
    · have hmem := (List.mem_cons.mp hmem).resolve_left (Ne.symm heq)
      -- What the lookup of the price yields does not depend on the one before it.
      have hyields : s.Yields (s.tableNow? net) (s.priceNow? net) net (.price code) := rfl
      have hsame := hyields.look_of_ne hfed hl (hrest _ hmem) heq id
      exact ih (hs.look id l) ((inside_isFed net fx crypto timeout).look id hl hfed) hrest hnodup
        hmem (hsame.trans hnone)

/-- **A job that finds no price for an asset leaves none to be had.** -/
theorem InUse.unpriced_begin (h : s.InUse net o fx crypto timeout jobs)
    (hclock : s.crypto.now = s.now) {job : Job} (hmem : .price code ∈ job.plan.lookups)
    (hnone : s.priceNow? net code = some none) :
    (s.begin net job).Unpriced fx crypto timeout (s.begin net job).sent code := by
  have htidy := job.isTidy_plan
  have hkeeps : (s.opened job.plan).Keeps net o := { h.sound.toKeeps with }
  have hfed : (s.opened job.plan).IsFed fx crypto timeout := { h.fed with }
  refine ⟨(inside_isFed net fx crypto timeout).kept.begin s job h.fed,
    (kept_clock net).begin s job hclock, [], (List.append_nil _).symm, .inr ?_⟩
  rw [begin_eq]
  exact barren_foldl_look hkeeps hfed s.begun htidy.isListed htidy.nodup hmem hnone

/-- **The next lookup after one that found no price sends a new request**, unless the price is on
    its way. -/
theorem InUse.exists_request_begin (h : s.InUse net o fx crypto timeout jobs)
    (htimeout : ¬ timeout ≤ 0) (hclock : s.crypto.now = s.now) {job next : Job}
    (hmem : .price code ∈ job.plan.lookups) (hnone : s.priceNow? net code = some none)
    (later : List Event) (hnext : .price code ∈ next.plan.lookups) :
    let begun := s.begin net job
    let after := (begun.run net later).1
    ∃ since, after.sent = begun.sent ++ since ∧
      ((Lookup.price code).request fx crypto ∉ since →
        after.crypto.cache.isInFlight code = false →
          ∃ new, (after.begin net next).sent = after.sent ++ new ∧
            (Lookup.price code).request fx crypto ∈ new) := by
  intro begun after
  have hafter : after.Unpriced fx crypto timeout begun.sent code :=
    (kept_unpriced net fx crypto htimeout begun.sent code).run
      (h.unpriced_begin hclock hmem hnone) later
  obtain ⟨since, hsince, hstate⟩ := hafter.unless_sent
  refine ⟨since, hsince, fun hunsent hflight => ⟨_, sent_begin hafter.fed net next, ?_⟩⟩
  -- With no request since, the price is still missing and nothing under way brings it.
  have hlacks : after.lacks (.price code) = true :=
    CacheRun.lacks_iff.mpr ⟨(hstate.resolve_left hunsent).peek_eq_none, hflight⟩
  rw [if_neg htimeout]
  exact List.mem_map_of_mem (List.mem_filter.mpr ⟨hnext, hlacks⟩)

/-! ### Answers -/

variable {a : Asset}

/-- **What a lookup of the price of a stablecoin is answered with**: the price that the lookup
    yields, or one dollar if it yields none.  It is a finite number above zero. -/
def IsStablePrice (net : Network) (s : Service) (code : String) (r : Result) : Prop :=
  ∃ price?, s.priceNow? net code = some price? ∧ r = .price (some (price?.getD 1)) ∧
    IsUsable (price?.getD 1)

/-- The plan for the price of a stablecoin, whose code may be in either case. -/
theorem plan_of_isStable (ha : Asset.crypto? (upperCode code) = some a)
    (hstable : a.kind.isStable = true) :
    (Job.price code).plan = .price (.coin a.code true) := by
  simp [Job.plan, coinSource, ha, hstable]

/-- A lookup of a price that is certain to end yields something. -/
theorem Keeps.isSome_priceNow? (h : s.Keeps net o) (hends : o.Ends (.price code)) :
    (s.priceNow? net code).isSome = true := by
  have hcovers := (h.covers s rfl code).2
  rw [← h.crypto_allowance] at hcovers
  exact CacheRun.isSome_yield? h.crypto hcovers hends

/-- The price that a lookup yields is usable. -/
theorem isUsable_of_priceNow? (h : s.IsSoundlyStocked fx)
    (hprice : s.priceNow? net code = some (some price)) : IsUsable price := by
  have hsound : s.crypto.Holds fun _ price => IsUsable price := h.crypto.mono fun _ _ hv => hv.2
  exact hsound.of_yield? (fun _ hv => isUsable_priceFetch hv) hprice

/-- **A result of a lookup of the price of a stablecoin** is what its lookup makes it. -/
theorem isStablePrice_of_foretold (h : s.IsSoundlyStocked fx) {r : Result}
    (hr : (Plan.price (.coin code true)).Foretold (.now net s) r) : s.IsStablePrice net code r := by
  obtain ⟨f, hf, hhas, rfl⟩ := hr
  obtain ⟨price?, hprice⟩ :=
    Option.isSome_iff_exists.mp (hhas (.price code) (List.mem_singleton_self _))
  have hnow : s.priceNow? net code = some price? := hf.prices code price? hprice
  refine ⟨price?, hnow, ?_, ?_⟩
  · rw [Plan.result, PriceSource.price, hprice]
    cases price? <;> rfl
  · cases price? with
    | none => exact ⟨by decide, by decide⟩
    | some price => exact isUsable_of_priceNow? h hnow

/-- The price of a stablecoin that is looked up together with other jobs. -/
theorem InUse.isStablePrice_asked (h : s.InUse net o fx crypto timeout jobs)
    (hplan : (Job.price code).plan = .price (.coin a.code true)) {before after : List Job}
    {r : Result} (hr : (s.awaitAll net (before ++ .price code :: after)).finished.lookup
      (s.begun + before.length) = some r) : (s.beginAll net before).IsStablePrice net a.code r := by
  have hforetold := h.foretold_asked hr
  rw [hplan] at hforetold
  exact isStablePrice_of_foretold (h.beginAll before).stocked hforetold

/-- The price of a stablecoin whose lookup begins now and is left to itself. -/
theorem InUse.isStablePrice_run (h : s.InUse net o fx crypto timeout jobs)
    (hplan : (Job.price code).plan = .price (.coin a.code true)) {later : List Event}
    {result : Option Result}
    (hmem : (s.begun, result) ∈ ((s.begin net (.price code)).run net later).2) :
    ∃ r, result = some r ∧ s.IsStablePrice net a.code r := by
  have htracks := tracks_begin h.sound.toRecords h.fed h.waiters (.price code)
  have hkeeps := (h.sound.begin (.price code)).toKeeps
  rw [hplan] at htracks
  obtain ⟨r, rfl, hr⟩ := Tracks.foretold_run ⟨hkeeps, htracks⟩ hmem
  exact ⟨r, rfl, isStablePrice_of_foretold h.stocked hr⟩

/-- **The price of a stablecoin is always had, and one dollar is never stored in its place.** In
    every state that a service with feeds can reach, over any network and whatever other jobs are
    asked together with it, the price of a stablecoin, whose code may be in either case, is the one
    that its lookup yields, or one dollar if it yields none, and it is a finite number above zero.
    It comes to an end exactly if the lookup does, and does so if fetches are allowed a limited time
    or all requests end.  The same holds of a lookup that is left to itself.  Every price that is
    stored was read off a reply to a request for it.  If fetches are allowed some time, then the
    next lookup after one that yields no price sends a new request, unless the price is on its
    way. -/
theorem run_pricesStablecoins (fx crypto : Feed) (f c timeout : Float)
    (fiatSpan cryptoSpan : Span) (net : Network) (events : List Event) (before after : List Job)
    {code : String} {a : Asset} (ha : Asset.crypto? (upperCode code) = some a)
    (hstable : a.kind.isStable = true) :
    let settings := Settings.ofFeeds fx crypto f c timeout
    let s := ((withLifetimes settings fiatSpan cryptoSpan).run net events).1
    let now := s.beginAll net before
    let request := (Lookup.price a.code).request fx crypto
    (∃ result, (s.askAll net (before ++ .price code :: after)).2[before.length]? = some result ∧
        (result.isSome = true ↔ (now.priceNow? net a.code).isSome = true) ∧
        (Outlook.AllEnd net settings → result.isSome = true) ∧
        ∀ r, result = some r → now.IsStablePrice net a.code r) ∧
      (∀ later result, (now.begun, result) ∈ ((now.begin net (.price code)).run net later).2 →
        ∃ r, result = some r ∧ now.IsStablePrice net a.code r) ∧
      (∀ e, (a.code, e) ∈ now.crypto.cache.entries →
        IsDelivered net fx crypto timeout now.sent a.code e.value) ∧
      (¬ timeout ≤ 0 → now.priceNow? net a.code = some none →
        ∀ job next, .price a.code ∈ job.plan.lookups → .price a.code ∈ next.plan.lookups →
          ∀ later, let begun := now.begin net job
            let after := (begun.run net later).1
            ∃ since, after.sent = begun.sent ++ since ∧
              (request ∉ since → after.crypto.cache.isInFlight a.code = false →
                ∃ new, (after.begin net next).sent = after.sent ++ new ∧ request ∈ new)) := by
  intro settings s now request
  have hs := inUse_run fx crypto f c timeout fiatSpan cryptoSpan net events
  have hnow := hs.beginAll before
  have hplan := plan_of_isStable ha hstable
  have hlookups : (Job.price code).plan.lookups = [.price a.code] := by
    rw [hplan]
    rfl
  -- That the price is asked for and found out is the same for every job with this lookup.
  have hasked := hs.isSome_asked_iff before after (.price code)
  rw [hlookups, List.forall_mem_singleton] at hasked
  refine ⟨⟨_, getElem?_askAll s net before after (.price code), hasked, ?_, ?_⟩, ?_, ?_, ?_⟩
  · exact fun hall => hasked.mpr (hnow.sound.toKeeps.isSome_priceNow? hall)
  · exact fun r hr => hs.isStablePrice_asked hplan hr
  · exact fun later result hmem => hnow.isStablePrice_run hplan hmem
  · intro e he
    have hkept := kept_provided net fx crypto timeout
    have hfresh := provided_withLifetimes net fx crypto f c timeout fiatSpan cryptoSpan
    exact (hkept.beginAll (hkept.run hfresh events) before).prices.stored a.code e he
  · intro htimeout hnone job next hjob hnext later
    have hfresh : (withLifetimes settings fiatSpan cryptoSpan).crypto.now =
        (withLifetimes settings fiatSpan cryptoSpan).now := rfl
    have hclock := (kept_clock net).beginAll ((kept_clock net).run hfresh events) before
    exact hnow.exists_request_begin htimeout hclock hjob hnone later hnext

/-- Where no request is ever answered, a dollar coin costs one dollar when the time for its price is
    over, and the next lookup asks for the price again. -/
theorem stablecoin_of_unanswered :
    let fx := Feed.fiat Feed.fiatName Feed.fiatUrl (.real 10)
    let crypto := Feed.crypto [] Feed.cryptoName Feed.cryptoUrl (.str "") (.real 10)
    let net : Network := fun _ _ => ⟨none, .timedOut, false⟩
    let fresh := withLifetimes (.ofFeeds fx crypto 1800 60 10) (.seconds 1800) (.seconds 60)
    let after := ((fresh.begin net (.price "uSdT")).run net [.pass 10]).1
    (∃ a, Asset.crypto? (upperCode "uSdT") = some a ∧ a.kind.isStable = true) ∧
      (fresh.askAll net [.price "uSdT"]).2[0]? = some (some (.price (some 1))) ∧
        ∃ new, (after.begin net (.price "usdt")).sent = after.sent ++ new ∧
          (Lookup.price "USDT").request fx crypto ∈ new := by
  intro fx crypto net fresh after
  have hstable : ((Asset.crypto? (upperCode "uSdT")).map fun a => a.kind.isStable) = some true := by
    decide +kernel
  obtain ⟨a, ha, hstable⟩ := Option.map_eq_some_iff.mp hstable
  have hcode : a.code = "USDT" := (Asset.crypto?_eq_some ha).2.trans (by decide +kernel)
  have hnone : fresh.priceNow? net "USDT" = some none := by decide +kernel
  obtain ⟨⟨result, hresult, -, hends, hprice⟩, -, -, hretry⟩ :=
    run_pricesStablecoins fx crypto 1800 60 10 (.seconds 1800) (.seconds 60) net [] [] [] ha hstable
  rw [hcode] at hprice hretry
  refine ⟨⟨a, ha, hstable⟩, ?_, ?_⟩
  · obtain ⟨r, rfl⟩ := Option.isSome_iff_exists.mp (hends (.inl (by decide +kernel)))
    obtain ⟨price?, hyield, rfl, -⟩ := hprice r rfl
    cases hyield.symm.trans hnone
    exact hresult
  · obtain ⟨since, hsince, hnext⟩ := hretry (by decide) hnone (.price "uSdT") (.price "usdt")
      (by decide +kernel) (by decide +kernel) [.pass 10]
    -- While time goes by nothing is sent.
    have hquiet : after.sent = (fresh.begin net (.price "uSdT")).sent :=
      sent_run _ net (List.forall_mem_singleton.mpr trivial)
    have hnil : since = [] := List.self_eq_append_right.mp (hquiet.symm.trans hsince)
    exact hnext (by simp [hnil]) (by decide +kernel)

/-- **Without time, or without an end.** Where fetches are allowed no time, the next lookup after
    one that found no price sends no request; where they are allowed any time, a lookup may never
    end. -/
theorem stablecoin_without_time_or_end :
    let net : Network := fun _ _ => ⟨none, .timedOut, false⟩
    let hurried := Service.start (.usual [] 1800 60 0)
    let after := (hurried.ask net (.price "usdt")).1
    (hurried.priceNow? net "USDT" = some none ∧ after.crypto.cache.isInFlight "USDT" = false ∧
        (after.begin net (.price "usdt")).sent = after.sent) ∧
      ((Service.start (.usual [] 1800 60 (1 / 0))).ask net (.price "usdt")).2.isSome = false := by
  decide +kernel

end Service

end Reckoner
