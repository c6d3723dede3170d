import Reckoner.Proofs.Alias.Signs
import Reckoner.Proofs.Cache.Yields
import Reckoner.Proofs.Query.Reading
import Reckoner.Proofs.Service.Stock

/-!
# Exactly the needed requests

A query that is answered sends a request for every price that it needs and that is neither stored
nor on its way, and no other one.  A service whose fetches are allowed no time sends none at all.

* `Service.lacks`, `Lookup.request` — whether a lookup begins a fetch, and the request of the fetch.
* `CacheRun.requests_call`, `CacheRun.requests_passTo` — a call sends at most one request, and the
  passing of time sends none.
* `Service.IsFed`, `sent_foldl_look` — the requests of several lookups.
* `Event.IsQuiet`, `sent_run` — events that send nothing.
* `isLongEnough_of_read?`, `lookups_queryPlan` — what a query comes to that is read.
* `NeedsNoPrice` — queries that look nothing up.
* `Service.run_sendsNeeded` — the requests of a query, in every state that a run can reach.
* `Service.sent_without_time` — a fetch that is allowed no time sends nothing.
-/

namespace Reckoner

/-! ### Requests of a cache -/

namespace CacheRun

variable {ν : Type} {r : CacheRun Nat ν} {key : String}

/-- **A call sends one request if the key is lacking**, unless fetches are allowed no time. -/
theorem requests_call (r : CacheRun Nat ν) (w : Nat) (key : String) (d : Delivery ν)
    (request : Request) :
    (r.call w key d).2.flatMap (Notice.requests request) =
      if r.sends && r.lacks key then [request] else [] := by
  rcases r.call_cases w key d with ⟨v, hpeek, hcall⟩ | ⟨f, hpeek, hflight, hcall⟩ |
    ⟨hpeek, hflight, hcall⟩
  · have hlacks : r.lacks key = false := by simp [lacks, peek, hpeek]
    simp [hcall, hlacks, Notice.requests]
  · have hlacks : r.lacks key = false := by simp [lacks, RateCache.isInFlight, hflight]
    simp [hcall, hlacks]
  · have hlacks : r.lacks key = true := by simp [lacks, peek, hpeek, RateCache.isInFlight, hflight]
    rw [hcall, hlacks, Bool.and_true]
    cases r.sends <;> simp [Notice.requests]

/-- Flights that end send no request. -/
theorem requests_arriveAll (r : CacheRun Nat ν) (due : List (Arrival ν)) (request : Request) :
    (r.arriveAll due).2.flatMap (Notice.requests request) = [] := by
  induction due generalizing r with
  | nil => rfl
  | cons a rest ih =>
    have hfirst : (r.arrive a).2.flatMap (Notice.requests request) = [] := by
      simp [arrive, List.flatMap_map, Notice.requests]
    show ((r.arrive a).2 ++ ((r.arrive a).1.arriveAll rest).2).flatMap _ = []
    rw [List.flatMap_append, hfirst, ih, List.append_nil]

/-- **The passing of time sends no request.** -/
theorem requests_passTo (r : CacheRun Nat ν) (moment : Rat) (request : Request) :
    (r.passTo moment).2.flatMap (Notice.requests request) = [] := by
  rw [passTo_eq]
  exact requests_arriveAll _ _ _

end CacheRun

/-- A number of seconds is over before it begins if it is not more than zero. -/
theorem Span.isVoid_ofFloat (x : Float) : (Span.ofFloat x).isVoid = decide (x ≤ 0) := by
  have hzero : Number.Binary.ofFloat? 0 = some ⟨false, 0, 0⟩ := rfl
  unfold ofFloat
  cases hx : Number.Binary.ofFloat? x with
  | some b => exact (decide_eq_decide.mpr (Number.le_iff_toRat hx hzero)).symm
  | none =>
    -- It is one of the infinities, or no number.
    have hle := Number.le_iff_compare x 0
    have hlt := Number.lt_iff_compare x 0
    have hgt := Number.lt_iff_compare 0 x
    unfold Number.Binary.ofFloat? at hx
    split at hx
    · cases hx
    · cases hx
    · next sign hu =>
      rw [hu] at hle hlt hgt
      cases sign with
      | positive =>
        have hpos : x > 0 := hgt.mpr rfl
        have hnot : ¬ x ≤ 0 := fun h => nomatch hle.mp h
        simp [hpos, hnot, isVoid]
      | negative =>
        have hpos : ¬ x > 0 := fun h => nomatch hgt.mp h
        have hneg : x < 0 := hlt.mpr rfl
        have hnot : x ≤ 0 := hle.mpr rfl
        simp [hpos, hneg, hnot, isVoid]
    · next hu =>
      rw [hu] at hle hlt hgt
      have hpos : ¬ x > 0 := fun h => nomatch hgt.mp h
      have hneg : ¬ x < 0 := fun h => nomatch hlt.mp h
      have hnot : ¬ x ≤ 0 := fun h => nomatch hle.mp h
      simp [hpos, hneg, hnot, isVoid]

/-! ### Requests of lookups -/

/-- The request of a lookup to the feeds: that for the rates of a currency, or that for the price of
    a crypto asset under the name under which it is quoted. -/
def Lookup.request (fx crypto : Feed) : Lookup → Request
  | .rates code => ⟨fx.url ++ "/latest", some [("from", code)], fx.headers⟩
  | .price code =>
    ⟨crypto.url ++ "/simple/price",
      some [("ids", ((Asset.crypto? code).bind fun a => a.kind.quotedAs?).getD ""),
        ("vs_currencies", "usd")], crypto.headers⟩

namespace Service

variable {net : Network} {fx crypto : Feed} {timeout : Float} {s : Service}

/-- Whether what is looked up is neither stored, and still good, nor being fetched. -/
def lacks (s : Service) : Lookup → Bool
  | .rates code => s.fiat.lacks code
  | .price code => s.crypto.lacks code

/-- **A service is fed** by two feeds, and its fetches are allowed some time. -/
structure IsFed (fx crypto : Feed) (timeout : Float) (s : Service) : Prop where
  fiat_eq : s.settings.fiat = .feed fx
  crypto_eq : s.settings.crypto = crypto
  fiat_allowance : s.fiat.allowance = Span.ofFloat timeout
  crypto_allowance : s.crypto.allowance = Span.ofFloat timeout

/-- The feeds of a service and the time that is allowed stay as they are. -/
theorem inside_isFed (net : Network) (fx crypto : Feed) (timeout : Float) :
    Inside net (IsFed fx crypto timeout) where
  congr h hsettings hfiat hcrypto :=
    ⟨hsettings ▸ h.fiat_eq, hsettings ▸ h.crypto_eq, hfiat ▸ h.fiat_allowance,
      hcrypto ▸ h.crypto_allowance⟩
  look id l _ h := by
    cases l with
    | rates code =>
      rw [look_rates]
      exact { h with fiat_allowance := (CacheRun.allowance_call _ _ _ _).trans h.fiat_allowance }
    | price code =>
      rw [look_price]
      exact { h with
        crypto_allowance := (CacheRun.allowance_call _ _ _ _).trans h.crypto_allowance }
  landTables moment h :=
    { h with fiat_allowance := (CacheRun.allowance_passTo _ _).trans h.fiat_allowance }
  landPrices moment h :=
    { h with crypto_allowance := (CacheRun.allowance_passTo _ _).trans h.crypto_allowance }
  cancel _ h := { h with }
  clear h := { h with }

theorem isFed_withLifetimes (fx crypto : Feed) (f c timeout : Float) (fiatSpan cryptoSpan : Span) :
    (withLifetimes (.ofFeeds fx crypto f c timeout) fiatSpan cryptoSpan).IsFed fx crypto timeout :=
  ⟨rfl, rfl, rfl, rfl⟩

/-- The request for the rates of a listed currency, whose code is in upper case. -/
theorem ratesRequest_of_listed (fx crypto : Feed) {code : String}
    (hcode : (Lookup.rates code).IsListed) :
    fx.ratesRequest code = (Lookup.rates code).request fx crypto := by
  obtain ⟨a, ha⟩ := Option.isSome_iff_exists.mp hcode
  obtain ⟨hmem, rfl⟩ := Asset.fiat?_eq_some ha
  rw [Feed.ratesRequest, (Asset.fiat?_code a hmem).2.2]
  rfl

theorem ratesFetch_request (h : s.IsFed fx crypto timeout) {code : String}
    (hcode : (Lookup.rates code).IsListed) :
    (s.ratesFetch net code).1 = (Lookup.rates code).request fx crypto := by
  unfold ratesFetch
  rw [h.fiat_eq]
  exact ratesRequest_of_listed fx crypto hcode

theorem priceFetch_request (h : s.IsFed fx crypto timeout) (code : String) :
    (s.priceFetch net code).1 = (Lookup.price code).request fx crypto := by
  show s.settings.crypto.pricesRequest _ = _
  rw [h.crypto_eq]
  rfl

/-- **A lookup sends its request if it is lacking**, unless fetches are allowed no time. -/
theorem sent_look (h : s.IsFed fx crypto timeout) (id : Nat) {l : Lookup} (hl : l.IsListed) :
    (look net id s l).sent =
      s.sent ++ if timeout ≤ 0 then [] else if s.lacks l then [l.request fx crypto] else [] := by
  cases l with
  | rates code =>
    -- A run with no time to wait ends its fetch before a request leaves.
    have hsends : s.fiat.sends = !decide (timeout ≤ 0) := by
      rw [CacheRun.sends, h.fiat_allowance, Span.isVoid_ofFloat]
    rw [look_rates]
    show s.sent ++ List.flatMap _ _ = _
    rw [CacheRun.requests_call, ratesFetch_request h hl, hsends]
    by_cases htimeout : timeout ≤ 0
    · simp [htimeout]
    · simp only [htimeout, decide_false, Bool.not_false, Bool.true_and, if_false]
      rfl
  | price code =>
    have hsends : s.crypto.sends = !decide (timeout ≤ 0) := by
      rw [CacheRun.sends, h.crypto_allowance, Span.isVoid_ofFloat]
    rw [look_price]
    show s.sent ++ List.flatMap _ _ = _
    rw [CacheRun.requests_call, priceFetch_request h, hsends]
    by_cases htimeout : timeout ≤ 0
    · simp [htimeout]
    · simp only [htimeout, decide_false, Bool.not_false, Bool.true_and, if_false]
      rfl

/-- A lookup does not matter to whether another one is lacking. -/
theorem lacks_look_of_ne (id : Nat) {l l' : Lookup} (hne : l' ≠ l) :
    (look net id s l).lacks l' = s.lacks l' := by
  cases l with
  | rates code =>
    rw [look_rates]
    cases l' with
    | rates code' => exact CacheRun.lacks_call_of_ne _ _ _ fun heq => hne (by rw [heq])
    | price code' => rfl
  | price code =>
    rw [look_price]
    cases l' with
    | rates code' => rfl
    | price code' => exact CacheRun.lacks_call_of_ne _ _ _ fun heq => hne (by rw [heq])

/-- **Different lookups send a request for each of them that is lacking**, in their order. -/
theorem sent_foldl_look (h : s.IsFed fx crypto timeout) (id : Nat) {ls : List Lookup}
    (hls : ∀ l ∈ ls, l.IsListed) (hnodup : ls.Nodup) :
    (ls.foldl (look net id) s).sent =
      s.sent ++ if timeout ≤ 0 then [] else (ls.filter s.lacks).map (Lookup.request fx crypto) := by
  induction ls generalizing s with
  | nil => simp
  | cons l rest ih =>
    obtain ⟨hl, hrest⟩ := List.forall_mem_cons.mp hls
    obtain ⟨hnew, hnodup⟩ := List.nodup_cons.mp hnodup
    -- A lookup changes what is lacking for itself only, and it is not among the others.
    have hlacks : rest.filter (look net id s l).lacks = rest.filter s.lacks := by
      refine List.filter_congr fun l' hl' => lacks_look_of_ne id ?_
      rintro rfl
      exact hnew hl'
    rw [List.foldl_cons, ih ((inside_isFed net fx crypto timeout).look id hl h) hrest hnodup,
      sent_look h id hl, hlacks, List.append_assoc, List.filter_cons]
    by_cases htimeout : timeout ≤ 0 <;> by_cases hlack : s.lacks l = true <;>
      simp [htimeout, hlack]

/-- **A job sends the requests that its lookups lack**, when it begins. -/
theorem sent_begin (h : s.IsFed fx crypto timeout) (net : Network) (job : Job) :
    (s.begin net job).sent =
      s.sent ++ if timeout ≤ 0 then [] else
        (job.plan.lookups.filter s.lacks).map (Lookup.request fx crypto) := by
  have hopened : (s.opened job.plan).IsFed fx crypto timeout := { h with }
  have htidy := job.isTidy_plan
  rw [begin_eq]
  exact sent_foldl_look hopened s.begun htidy.isListed htidy.nodup

/-! ### What sends nothing -/

/-- **The passing of time sends nothing.** -/
@[simp] theorem sent_passTo (s : Service) (moment : Rat) : (s.passTo moment).sent = s.sent := by
  rw [passTo_eq]
  show (s.sent ++ List.flatMap _ _) ++ List.flatMap _ _ = s.sent
  rw [CacheRun.requests_passTo, CacheRun.requests_passTo, List.append_nil, List.append_nil]

theorem sent_foldl_await (s : Service) (ids : List Nat) :
    (ids.foldl Service.await s).sent = s.sent := by
  induction ids generalizing s with
  | nil => rfl
  | cons id rest ih =>
    rw [List.foldl_cons, ih]
    rcases s.await_cases id with heq | ⟨moment, -, heq⟩ <;> rw [heq]
    exact s.sent_passTo moment

/-- Waiting for jobs sends nothing besides what was sent when they began. -/
theorem sent_askAll (s : Service) (net : Network) (asked : List Job) :
    (s.askAll net asked).1.sent = (s.beginAll net asked).sent := by
  rw [askAll_eq]
  exact (sent_foldl_await _ _).trans (sent_passTo _ _)

/-- An event with which no job begins and no feed is checked. -/
def Event.IsQuiet : Event → Prop
  | .ask jobs => jobs = []
  | .start _ | .health => False
  | .cancel _ | .pass _ | .clear => True

theorem sent_step (s : Service) (net : Network) {e : Event} (h : e.IsQuiet) :
    (s.step net e).1.sent = s.sent := by
  cases e with
  | ask jobs =>
    cases h
    exact sent_askAll s net []
  | start job => cases h
  | cancel id => rfl
  | pass seconds => exact sent_passTo _ _
  | clear => rfl
  | health => cases h

/-- **Quiet events send nothing.** -/
theorem sent_run (s : Service) (net : Network) {events : List Event}
    (h : ∀ e ∈ events, e.IsQuiet) : (s.run net events).1.sent = s.sent := by
  induction events generalizing s with
  | nil => rfl
  | cons e rest ih =>
    obtain ⟨he, hrest⟩ := List.forall_mem_cons.mp h
    exact (ih _ hrest).trans (sent_step s net he)

end Service

/-! ### Queries that are read -/

/-- The text of a query is not longer than what is typed, blanks at its ends aside. -/
theorem Query.length_queryText_le (s : List Char) :
    (Query.queryText s).length ≤ (Text.trim s).length := by
  have hmarks := (List.dropWhile_sublist (· == '?') (l := (Text.trim s).reverse)).length_le
  rw [List.length_reverse] at hmarks
  refine (Query.trim_sublist _).length_le.trans ?_
  rwa [List.length_reverse]

theorem Query.IsSeparator.length_pos {s : List Char} (h : IsSeparator s) : 0 < s.length := by
  obtain ⟨c, r, rfl, -⟩ := h.exists_cons
  exact Nat.succ_pos _

/-- **What is read is long enough for a query**: it has an amount and a separator. -/
theorem isLongEnough_of_read? {query : String} {q : Query} (h : Query.read? query = some q) :
    isLongEnough query = true := by
  obtain ⟨parts, hparts, -⟩ := Option.bind_eq_some_iff.mp h
  -- Whatever form is read, the amount and the separator alone are two characters.
  have htext : 2 ≤ (Query.queryText query.toList).length := by
    have hend : Query.EndsInText (Query.queryText query.toList) := Query.endsInText_trim _
    obtain hplain | ⟨-, hsymbol⟩ := Option.or_eq_some_iff.mp hparts
    · obtain ⟨p, -, -⟩ := Query.exists_isFirst hend hplain
      have hamount := List.length_pos_iff.mpr p.isAmount.ne_nil
      have hseparator := p.isSeparator.length_pos
      rw [← p.text_eq]
      simp only [List.length_append]
      omega
    · obtain ⟨p, -⟩ := Query.exists_symbolSplit hsymbol
      have hseparator := p.isSeparator.length_pos
      rw [← p.text_eq]
      simp only [List.length_cons, List.length_append]
      omega
  exact decide_eq_true (htext.trans (Query.length_queryText_le _))

/-- The plan for a query that is read and that has no answer without rates. -/
theorem queryPlan_of_read? {query : String} {q : Query} (hoffline : offlineAnswer? query = none)
    (h : Query.read? query = some q) : queryPlan query = conversionPlan q := by
  simp [queryPlan, isLongEnough_of_read? h, hoffline, h]

/-- **The lookups of a query**: those for the prices of two different assets, if it has no answer
    without rates, and none in all other cases. -/
theorem lookups_queryPlan {query : String} {q : Query} {a b : Asset}
    (hoffline : offlineAnswer? query = none) (hq : Query.read? query = some q)
    (ha : Alias.asset? q.source = some a) (hb : Alias.asset? q.target = some b) (hne : a ≠ b) :
    (queryPlan query).lookups = a.lookup?.toList ++ b.lookup?.toList := by
  rw [queryPlan_of_read? hoffline hq, conversionPlan_exchange ha hb hne]
  exact Plan.lookups_exchange (Alias.isListed_of_asset? ha) (Alias.isListed_of_asset? hb) q

/-- A query that needs no price: it has an answer without rates, or is not read, or a phrase names
    no asset, or both name the same one. -/
inductive NeedsNoPrice (query : String) : Prop where
  | answered (a : Answer) : offlineAnswer? query = some a → NeedsNoPrice query
  | unread : Query.read? query = none → NeedsNoPrice query
  | unnamed (q : Query) : Query.read? query = some q →
      Alias.asset? q.source = none ∨ Alias.asset? q.target = none → NeedsNoPrice query
  | same (q : Query) (a : Asset) : Query.read? query = some q →
      Alias.asset? q.source = some a → Alias.asset? q.target = some a → NeedsNoPrice query

/-- A query that needs no price looks nothing up. -/
theorem NeedsNoPrice.lookups_queryPlan {query : String} (h : NeedsNoPrice query) :
    (queryPlan query).lookups = [] := by
  -- Only a conversion can list lookups: every other branch of the plan has its answer.
  have hconversion : ∀ q, Query.read? query = some q → (conversionPlan q).lookups = [] →
      (queryPlan query).lookups = [] := by
    intro q hq hlookups
    unfold queryPlan
    split_ifs
    · split
      · rfl
      · simp only [hq]
        exact hlookups
    · rfl
  cases h with
  | answered a ha =>
    unfold queryPlan
    split_ifs
    · rw [ha]
      rfl
    · rfl
  | unread hq =>
    unfold queryPlan
    split_ifs
    · rw [hq]
      split <;> rfl
    · rfl
  | unnamed q hq hnone =>
    exact hconversion q hq (by rw [conversionPlan_unnamed hnone]; rfl)
  | same q a hq ha hb =>
    exact hconversion q hq (by rw [conversionPlan_same ha hb]; rfl)

namespace Service

/-- **Exactly the needed requests.** In every state that a service with feeds can reach, while any
    jobs wait, a query that has no answer without rates and whose phrases name two different assets
    sends, if fetches are allowed some time, one request for each of the two that is not the dollar
    and whose price or table is neither stored and still good nor on its way, the source before the
    target; and every other query sends none.  All of them are sent when the query begins: waiting
    for it sends nothing, and neither does anything else but jobs that begin and feeds that are
    checked. -/
theorem run_sendsNeeded (fx crypto : Feed) (f c timeout : Float) (fiatSpan cryptoSpan : Span)
    (net : Network) (events : List Event) (before : List Job) (query : String) :
    let fresh := withLifetimes (.ofFeeds fx crypto f c timeout) fiatSpan cryptoSpan
    let s := (fresh.run net events).1.beginAll net before
    let asked := s.begin net (.answer query)
    (∀ q a b, offlineAnswer? query = none → Query.read? query = some q →
      Alias.asset? q.source = some a → Alias.asset? q.target = some b → a ≠ b →
        asked.sent = s.sent ++ if timeout ≤ 0 then [] else
          ((a.lookup?.toList ++ b.lookup?.toList).filter s.lacks).map
            (Lookup.request fx crypto)) ∧
      (NeedsNoPrice query → asked.sent = s.sent) ∧
      (s.ask net (.answer query)).1.sent = asked.sent ∧
      ∀ later, (∀ e ∈ later, e.IsQuiet) → (asked.run net later).1.sent = asked.sent := by
  intro fresh s asked
  have hkept := (inside_isFed net fx crypto timeout).kept
  have hs : s.IsFed fx crypto timeout :=
    hkept.beginAll (hkept.run (isFed_withLifetimes fx crypto f c timeout _ _) events) before
  -- What is sent when a job begins follows from the lookups of its plan.
  have hsent := sent_begin hs net (.answer query)
  refine ⟨?_, ?_, sent_askAll s net [.answer query], fun later => sent_run asked net⟩
  · intro q a b hoffline hq ha hb hne
    have hlookups := lookups_queryPlan hoffline hq ha hb hne
    rw [← hlookups]
    exact hsent
  · intro hquery
    have hlookups : (Job.answer query).plan.lookups = [] := hquery.lookups_queryPlan
    rw [hlookups] at hsent
    simpa using hsent

end Service

/-! ### Fetches that are allowed no time -/

/-- A phrase that names neither a scale nor a unit is not converted without rates. -/
theorem conversion?_eq_none {q : Query} (hscale : Alias.scale? q.source = none)
    (hunit : Alias.unit? q.source = none) : conversion? q = none := by
  unfold conversion?
  rw [hscale, hunit]
  cases Alias.scale? q.target <;> rfl

/-- A phrase names the asset with the first name that has its key. -/
theorem Alias.asset?_of_lookup {phrase : String} {a : Asset} (hkey : assetKey phrase.toList ≠ [])
    (h : (assetNames.map fun (name, value) => (String.ofList (assetKey name.toList), value)).lookup
      (String.ofList (assetKey phrase.toList)) = some a) : asset? phrase = some a := by
  have hne : String.ofList (assetKey phrase.toList) ≠ "" :=
    fun heq => hkey (String.ofList_injective heq)
  have htable : assets.lookup (String.ofList (assetKey phrase.toList)) = some a := by
    rw [assets, lookup_tableOf, if_neg hne, h]
  simp [asset?, hkey, htable]

/-- A query that comes to a conversion of five euros to dollars. -/
theorem read_euroQuery : ∃ q a b, Query.read? "5 € to $" = some q ∧
    offlineAnswer? "5 € to $" = none ∧ q.amount = 5 ∧
      Alias.asset? q.source = some a ∧ Asset.fiat? "EUR" = some a ∧
        Alias.asset? q.target = some b ∧ Asset.fiat? "USD" = some b ∧ a ≠ b := by
  have hread : (Query.read? "5 € to $").map (fun q => (q.amount, q.source, q.target)) =
      some (5, "€", "$") := by
    decide +kernel
  obtain ⟨q, hq, hparts⟩ := Option.map_eq_some_iff.mp hread
  obtain ⟨hamount, hphrases⟩ := Prod.mk.inj hparts
  obtain ⟨hsource, htarget⟩ := Prod.mk.inj hphrases
  obtain ⟨a, ha⟩ : ∃ a, Asset.fiat? "EUR" = some a := Option.isSome_iff_exists.mp (by decide)
  obtain ⟨b, hb⟩ : ∃ b, Asset.fiat? "USD" = some b := Option.isSome_iff_exists.mp (by decide)
  refine ⟨q, a, b, hq, ?_, hamount, ?_, ha, ?_, hb, ?_⟩
  · have hcalculation : Arithmetic.calculation? "5 € to $" = none := by decide +kernel
    have hscale : Alias.scale? q.source = none :=
      Alias.scale?_eq_none (hsource ▸ by decide +kernel)
    have hunit : Alias.unit? q.source = none :=
      Alias.unit?_eq_none (hsource ▸ by decide +kernel)
    simp [offlineAnswer?, hq, conversion?_eq_none hscale hunit, hcalculation]
  · rw [hsource, ← ha]
    exact Alias.asset?_of_lookup (by decide +kernel) (by decide +kernel)
  · rw [htarget, ← hb]
    exact Alias.asset?_of_lookup (by decide +kernel) (by decide +kernel)
  · rintro rfl
    exact absurd ((Asset.fiat?_eq_some ha).2.symm.trans (Asset.fiat?_eq_some hb).2) (by decide)

/-- This conversion looks up the rates of the euro, since a dollar costs one dollar. -/
theorem lookups_euroQuery : (Job.answer "5 € to $").plan.lookups = [.rates "EUR"] := by
  obtain ⟨q, a, b, hq, hoffline, -, hnamea, ha, hnameb, hb, hne⟩ := read_euroQuery
  obtain ⟨hlista, hcodea⟩ := Asset.fiat?_eq_some ha
  obtain ⟨hlistb, hcodeb⟩ := Asset.fiat?_eq_some hb
  have hlookups := lookups_queryPlan hoffline hq hnamea hnameb hne
  rw [Asset.lookup?_fiat hlista, Asset.lookup?_fiat hlistb, hcodea, hcodeb] at hlookups
  exact hlookups

/-- **Without time nothing is sent.** Where fetches are allowed no time, a query between two
    currencies sends no request for the one that is lacking. -/
theorem Service.sent_without_time :
    let fx := Feed.fiat Feed.fiatName Feed.fiatUrl (.real 0)
    let crypto := Feed.crypto [] Feed.cryptoName Feed.cryptoUrl (.str "") (.real 0)
    let reply := Reply.response 200 "" (.ok (.obj [("rates", .obj [("USD", .float 1.25)])]))
    let s := Service.start (.usual [] 1800 60 0)
    ∃ q a b, offlineAnswer? "5 € to $" = none ∧ Query.read? "5 € to $" = some q ∧
      Alias.asset? q.source = some a ∧ Alias.asset? q.target = some b ∧ a ≠ b ∧
      (s.begin (fun _ _ => ⟨some 0, reply, false⟩) (.answer "5 € to $")).sent ≠
        s.sent ++
          ((a.lookup?.toList ++ b.lookup?.toList).filter s.lacks).map
            (Lookup.request fx crypto) := by
  intro fx crypto reply s
  obtain ⟨q, a, b, hq, hoffline, -, hnamea, ha, hnameb, -, hne⟩ := read_euroQuery
  obtain ⟨hlista, hcodea⟩ := Asset.fiat?_eq_some ha
  refine ⟨q, a, b, hoffline, hq, hnamea, hnameb, hne, ?_⟩
  have hs : s.IsFed fx crypto 0 := isFed_withLifetimes fx crypto 1800 60 0 _ _
  have hlacks : s.lacks (.rates "EUR") = true := rfl
  have hlookup : a.lookup? = some (.rates "EUR") := by
    rw [Asset.lookup?_fiat hlista, hcodea]
    decide
  rw [sent_begin hs, if_pos (by decide), hlookup]
  simp [hlacks]

end Reckoner
