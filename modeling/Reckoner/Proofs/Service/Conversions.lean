import Reckoner.Proofs.Service.Tracking

/-!
# Conversions of money

A conversion of money is answered with the amount times the quotient of two prices in dollars, each
of which is what a lookup in one of the caches yields at the moment when the conversion begins.

* `CacheRun.Holds.of_yield?`, `Service.isSoundTable_of_tableNow?` — what lookups yield is sound.
* `Service.dollarPrice?` — the price of an asset in dollars.
* `Service.dollarPrice?_eq`, `Service.isSome_dollarPrice?_iff` — the price is what follows from
  findings, and it is had exactly if its lookup ends.
* `Service.Converts`, `Service.exchange?` — what the answer to a conversion is, and that for two
  different assets.
* `Service.converts_of_foretold`, `Service.ends_conversionPlan_iff` — the result of a conversion,
  and when there is one.
* `InUse.converts_asked`, `InUse.converts_run` — conversions that are asked together with other
  jobs, or left to themselves.
* `Service.run_converts` — conversions in every state that a run can reach.
-/

namespace Reckoner

open Reckoner.Number

/-! ### What lookups yield -/

/-- What a call yields has the property of what is stored or to come, if what a fetch brings has
    it. -/
theorem CacheRun.Holds.of_yield? {ω ν : Type} {Q : String → ν → Prop} {r : CacheRun ω ν}
    (h : r.Holds Q) {key : String} {d : Delivery ν} {v : ν} (hd : ∀ v, d.value = some v → Q key v)
    (hv : r.yield? key d = some (some v)) : Q key v := by
  unfold yield? at hv
  split at hv
  · next x hpeek =>
    cases hv
    obtain ⟨e, he, -, rfl⟩ := (RateCache.peek_eq_some_iff _ _ _ _).mp hpeek
    exact h.stored key e (mem_of_lookup_eq_some he)
  · split_ifs at hv
    · obtain ⟨a, ha, hvalue⟩ := Option.map_eq_some_iff.mp hv
      have hkey : a.key = key := by simpa using List.find?_some ha
      exact hkey ▸ h.coming a (List.mem_of_find?_eq_some ha) v hvalue
    · exact hd v (Delivery.value_of_ending hv)

/-- Every rate of a sound table is usable, so that none is left out. -/
theorem IsSoundTable.rateIn_eq {base : String} {table : RateTable} (h : IsSoundTable base table)
    (code : String) : rateIn table code = table.lookup code := by
  unfold rateIn
  cases hlookup : table.lookup code with
  | none => rfl
  | some rate =>
    have husable := h.usable code rate (mem_of_lookup_eq_some hlookup)
    simp [husable.isFinite, husable.pos]

namespace Service

variable {net : Network} {fx : Feed} {s : Service} {a b : Asset} {f : Findings}

/-- **A table that a lookup yields is sound.** -/
theorem isSoundTable_of_tableNow? (h : s.IsSoundlyStocked fx) {code : String}
    (hcode : (Asset.fiat? code).isSome = true) {table : RateTable}
    (htable : s.tableNow? net code = some (some table)) : IsSoundTable code table :=
  (h.fiat.of_yield? (fun _ ht => ⟨hcode, isSoundTable_ratesFetch h.fiat_eq hcode ht⟩) htable).2

/-! ### Prices -/

/-- **The price of an asset in dollars**: one for the dollar; for other currencies the rate of the
    dollar in the table that the lookup of the currency yields, if it yields one that has a rate of
    the dollar; for crypto assets what the lookup of their price yields, or one for a stablecoin if
    it yields none.  It is not had if the lookup never ends. -/
def dollarPrice? (s : Service) (net : Network) (a : Asset) : Option (Option Float) :=
  if a.kind.isCrypto then
    (s.priceNow? net a.code).map fun price => price.or (if a.kind.isStable then some 1 else none)
  else if a.code = dollarCode then some (some 1)
  else (s.tableNow? net a.code).map fun table => table.bind fun t => t.lookup dollarCode

/-- A crypto asset costs its price, or a dollar if it is a stablecoin without one. -/
theorem dollarPrice?_of_crypto (ha : a ∈ Asset.cryptoAssets) :
    s.dollarPrice? net a = (s.priceNow? net a.code).map fun price =>
      price.or (if a.kind.isStable then some 1 else none) := by
  rw [dollarPrice?, (Asset.crypto?_code a ha).1, if_pos rfl]

/-- A currency costs its rate to the dollar. -/
theorem dollarPrice?_of_fiat (ha : a ∈ Asset.fiatCurrencies) (hne : a.code ≠ dollarCode) :
    s.dollarPrice? net a =
      (s.tableNow? net a.code).map fun table => table.bind fun t => t.lookup dollarCode := by
  rw [dollarPrice?, (Asset.fiat?_code a ha).1, if_neg (by decide), if_neg hne]

/-- A dollar costs a dollar. -/
theorem dollarPrice?_of_dollar (ha : a ∈ Asset.fiatCurrencies) (heq : a.code = dollarCode) :
    s.dollarPrice? net a = some (some 1) := by
  rw [dollarPrice?, (Asset.fiat?_code a ha).1, if_neg (by decide), if_pos heq]

/-- **The price of an asset is had exactly if its lookup ends.** -/
theorem isSome_dollarPrice?_iff (ha : a.IsListed) :
    (s.dollarPrice? net a).isSome = true ↔ ∀ l ∈ a.lookup?, (Outlook.now net s).Ends l := by
  rcases ha with ha | ha
  · rw [Asset.lookup?_fiat ha]
    by_cases hcode : a.code = dollarCode
    · simp [dollarPrice?_of_dollar ha hcode, hcode]
    · rw [dollarPrice?_of_fiat ha hcode, Option.isSome_map, if_neg hcode]
      simp [Outlook.Ends, Outlook.now, Outlook.exact, Forecast.exact]
  · rw [Asset.lookup?_crypto ha, dollarPrice?_of_crypto ha, Option.isSome_map]
    simp [Outlook.Ends, Outlook.now, Outlook.exact, Forecast.exact]

/-- **The price of an asset is what follows from findings** that are what the lookups yield. -/
theorem dollarPrice?_eq (h : s.IsSoundlyStocked fx) (ha : a.IsListed) (hf : f.Fit (.now net s))
    (hhas : ∀ l ∈ a.lookup?, f.has l = true) :
    s.dollarPrice? net a = some ((dollarSource a).price f) := by
  rcases ha with ha | ha
  · rw [Asset.lookup?_fiat ha] at hhas
    rw [dollarSource_fiat ha]
    by_cases hcode : a.code = dollarCode
    · rw [dollarPrice?_of_dollar ha hcode, if_pos hcode]
      rfl
    · rw [if_neg hcode] at hhas ⊢
      obtain ⟨table, htable⟩ := Option.isSome_iff_exists.mp (hhas _ rfl)
      have hnow : s.tableNow? net a.code = some table := hf.tables a.code table htable
      rw [dollarPrice?_of_fiat ha hcode, hnow, PriceSource.price, htable]
      -- No rate of a sound table is left out.
      cases table with
      | none => rfl
      | some t =>
        have hlisted : (Asset.fiat? a.code).isSome = true :=
          Option.isSome_of_eq_some (Asset.fiat?_code a ha).2.1
        have hsound := isSoundTable_of_tableNow? h hlisted hnow
        simp [hsound.rateIn_eq]
  · rw [Asset.lookup?_crypto ha] at hhas
    obtain ⟨price, hprice⟩ := Option.isSome_iff_exists.mp (hhas _ rfl)
    have hnow : s.priceNow? net a.code = some price := hf.prices a.code price hprice
    rw [dollarPrice?_of_crypto ha, hnow, dollarSource_crypto ha, PriceSource.price, hprice]
    rfl

/-! ### Answers to conversions -/

/-- **What a conversion is answered with.** There is no answer exactly if a phrase names no asset,
    or if the phrases name two assets of which one has no price, or whose prices make the amount
    infinite or no number.  Otherwise the answer shows the amount in the first asset, and the amount
    times the quotient of the prices in the second one; for one and the same asset, the amount. -/
structure Converts (net : Network) (s : Service) (q : Query) (a? : Option Answer) : Prop where
  eq_none_iff : a? = none ↔
    Alias.asset? q.source = none ∨ Alias.asset? q.target = none ∨
      ∃ a b, Alias.asset? q.source = some a ∧ Alias.asset? q.target = some b ∧ a ≠ b ∧
        (s.dollarPrice? net a = some none ∨ s.dollarPrice? net b = some none ∨
          ∃ x y, s.dollarPrice? net a = some (some x) ∧ s.dollarPrice? net b = some (some y) ∧
            (q.amount * (x / y)).isFinite = false)
  input : ∀ answer ∈ a?, ∀ a, Alias.asset? q.source = some a →
    answer.input = a.amountText q.amount ∧ answer.inputLabel = a.displayLabel
  result : ∀ answer ∈ a?, ∀ a b, Alias.asset? q.source = some a → Alias.asset? q.target = some b →
    a ≠ b → ∃ x y, s.dollarPrice? net a = some (some x) ∧ s.dollarPrice? net b = some (some y) ∧
      answer.result = b.amountText (q.amount * (x / y)) ∧ answer.resultLabel = b.displayLabel
  same : ∀ answer ∈ a?, Alias.asset? q.source = Alias.asset? q.target →
    answer.result = answer.input ∧ answer.resultLabel = answer.inputLabel

/-- **Where a phrase names no asset**, there is no answer. -/
theorem converts_unnamed {q : Query}
    (h : Alias.asset? q.source = none ∨ Alias.asset? q.target = none) :
    s.Converts net q none where
  eq_none_iff := ⟨fun _ => h.elim .inl fun hb => .inr (.inl hb), fun _ => rfl⟩
  input := by simp
  result := by simp
  same := by simp

/-- **Where both name one asset**, the amount is the result. -/
theorem converts_same {q : Query} (ha : Alias.asset? q.source = some a)
    (hb : Alias.asset? q.target = some a) :
    s.Converts net q (some (exchangeAnswer q.amount q.amount a a)) where
  eq_none_iff := by simp [ha, hb]
  input := by
    rintro _ ⟨⟩ a' ha'
    cases ha.symm.trans ha'
    exact ⟨rfl, rfl⟩
  result := by
    rintro _ ⟨⟩ a' b' ha' hb' hne
    cases ha.symm.trans ha'
    cases hb.symm.trans hb'
    exact absurd rfl hne
  same := by
    rintro _ ⟨⟩ -
    exact ⟨rfl, rfl⟩

/-- The answer to a conversion between two assets whose prices may be lacking. -/
def exchange? (q : Query) (a b : Asset) (x? y? : Option Float) : Option Answer :=
  x?.bind fun x => y?.bind fun y => Plan.exchanged q a b x y

/-- There is an answer where both prices are there and the result is finite. -/
theorem exchange?_eq_some_iff {q : Query} {x? y? : Option Float} (answer : Answer) :
    exchange? q a b x? y? = some answer ↔
      ∃ x y, x? = some x ∧ y? = some y ∧ (q.amount * (x / y)).isFinite = true ∧
        answer = exchangeAnswer q.amount (q.amount * (x / y)) a b := by
  cases x? with
  | none => simp [exchange?]
  | some x =>
    cases y? with
    | none => simp [exchange?]
    | some y =>
      simp only [exchange?, Plan.exchanged, Option.bind_some, Option.ite_none_right_eq_some,
        Option.some.injEq]
      constructor
      · rintro ⟨hfinite, rfl⟩
        exact ⟨x, y, rfl, rfl, hfinite, rfl⟩
      · rintro ⟨x', y', rfl, rfl, hfinite, rfl⟩
        exact ⟨hfinite, rfl⟩

/-- There is none where a price is lacking or the result is not finite. -/
theorem exchange?_eq_none_iff {q : Query} {x? y? : Option Float} :
    exchange? q a b x? y? = none ↔
      x? = none ∨ y? = none ∨
        ∃ x y, x? = some x ∧ y? = some y ∧ (q.amount * (x / y)).isFinite = false := by
  cases x? with
  | none => simp [exchange?]
  | some x =>
    cases y? with
    | none => simp [exchange?]
    | some y => simp [exchange?, Plan.exchanged]

/-- The prices of two different assets settle what an amount is converted to. -/
theorem converts_exchange {q : Query} (ha : Alias.asset? q.source = some a)
    (hb : Alias.asset? q.target = some b) (hne : a ≠ b) {x? y? : Option Float}
    (hx : s.dollarPrice? net a = some x?) (hy : s.dollarPrice? net b = some y?) :
    s.Converts net q (exchange? q a b x? y?) where
  eq_none_iff := by
    simp only [exchange?_eq_none_iff, ha, hb, reduceCtorEq, false_or, Option.some.injEq]
    constructor
    · intro hnone
      refine ⟨a, b, rfl, rfl, hne, ?_⟩
      simpa [hx, hy] using hnone
    · rintro ⟨a', b', rfl, rfl, -, hnone⟩
      simpa [hx, hy] using hnone
  input answer hanswer a' ha' := by
    cases ha.symm.trans ha'
    obtain ⟨x, y, -, -, -, rfl⟩ := (exchange?_eq_some_iff answer).mp hanswer
    exact ⟨rfl, rfl⟩
  result answer hanswer a' b' ha' hb' _ := by
    cases ha.symm.trans ha'
    cases hb.symm.trans hb'
    obtain ⟨x, y, rfl, rfl, -, rfl⟩ := (exchange?_eq_some_iff answer).mp hanswer
    exact ⟨x, y, hx, hy, rfl, rfl⟩
  same answer _ hsame := by
    rw [ha, hb] at hsame
    exact absurd (Option.some.inj hsame) hne

/-- **A result of a conversion is what the prices make it.** -/
theorem converts_of_foretold (h : s.IsSoundlyStocked fx) {q : Query} {r : Result}
    (hr : (conversionPlan q).Foretold (.now net s) r) :
    ∃ a?, r = .answer a? ∧ s.Converts net q a? := by
  obtain ⟨f, hf, hhas, rfl⟩ := hr
  cases ha : Alias.asset? q.source with
  | none =>
    rw [conversionPlan_unnamed (.inl ha)]
    exact ⟨none, rfl, converts_unnamed (.inl ha)⟩
  | some a =>
    cases hb : Alias.asset? q.target with
    | none =>
      rw [conversionPlan_unnamed (.inr hb)]
      exact ⟨none, rfl, converts_unnamed (.inr hb)⟩
    | some b =>
      -- Where both phrases name the same asset no price is asked for.
      by_cases hne : a = b
      · subst hne
        rw [conversionPlan_same ha hb]
        exact ⟨_, rfl, converts_same ha hb⟩
      · have hlista := Alias.isListed_of_asset? ha
        have hlistb := Alias.isListed_of_asset? hb
        rw [conversionPlan_exchange ha hb hne] at hhas ⊢
        rw [Plan.lookups_exchange hlista hlistb] at hhas
        have hx := dollarPrice?_eq h hlista hf fun l hl =>
          hhas l (List.mem_append_left _ (Option.mem_toList.mpr hl))
        have hy := dollarPrice?_eq h hlistb hf fun l hl =>
          hhas l (List.mem_append_right _ (Option.mem_toList.mpr hl))
        exact ⟨_, rfl, converts_exchange ha hb hne hx hy⟩

/-- **The lookups of a conversion end exactly if the prices that it needs are had.** -/
theorem ends_conversionPlan_iff (q : Query) :
    (∀ l ∈ (conversionPlan q).lookups, (Outlook.now net s).Ends l) ↔
      ∀ a b, Alias.asset? q.source = some a → Alias.asset? q.target = some b → a ≠ b →
        (s.dollarPrice? net a).isSome = true ∧ (s.dollarPrice? net b).isSome = true := by
  constructor
  · intro hends a b ha hb hne
    have hlista := Alias.isListed_of_asset? ha
    have hlistb := Alias.isListed_of_asset? hb
    rw [conversionPlan_exchange ha hb hne, Plan.lookups_exchange hlista hlistb] at hends
    exact ⟨(isSome_dollarPrice?_iff hlista).mpr fun l hl =>
        hends l (List.mem_append_left _ (Option.mem_toList.mpr hl)),
      (isSome_dollarPrice?_iff hlistb).mpr fun l hl =>
        hends l (List.mem_append_right _ (Option.mem_toList.mpr hl))⟩
  · intro hprices
    cases ha : Alias.asset? q.source with
    | none => simp [conversionPlan_unnamed (.inl ha), Plan.lookups]
    | some a =>
      cases hb : Alias.asset? q.target with
      | none => simp [conversionPlan_unnamed (.inr hb), Plan.lookups]
      | some b =>
        -- The lookups of the plan are those of the two prices.
        by_cases hne : a = b
        · subst hne
          simp [conversionPlan_same ha hb, Plan.lookups]
        · have hlista := Alias.isListed_of_asset? ha
          have hlistb := Alias.isListed_of_asset? hb
          obtain ⟨hx, hy⟩ := hprices a b ha hb hne
          rw [conversionPlan_exchange ha hb hne, Plan.lookups_exchange hlista hlistb]
          intro l hl
          rcases List.mem_append.mp hl with hl | hl
          · exact (isSome_dollarPrice?_iff hlista).mp hx l (Option.mem_toList.mp hl)
          · exact (isSome_dollarPrice?_iff hlistb).mp hy l (Option.mem_toList.mp hl)

/-! ### Runs -/

/-- The result of a job that is asked together with others. -/
theorem getElem?_askAll (s : Service) (net : Network) (before after : List Job) (job : Job) :
    (s.askAll net (before ++ job :: after)).2[before.length]? =
      some ((s.awaitAll net (before ++ job :: after)).finished.lookup
        (s.begun + before.length)) := by
  have hlt : before.length < (before ++ job :: after).length := by simp
  rw [askAll_eq, List.getElem?_map, List.getElem?_range' hlt, Option.map_some, Nat.one_mul]

variable {o : Outlook} {crypto : Feed} {timeout : Float} {jobs : List Job}

/-- What is answered to a conversion that is asked together with other jobs is what the prices make
    it when it begins. -/
theorem InUse.converts_asked (h : s.InUse net o fx crypto timeout jobs) {before after : List Job}
    {q : Query} {r : Result}
    (hr : (s.awaitAll net (before ++ .convert q :: after)).finished.lookup
      (s.begun + before.length) = some r) :
    ∃ a?, r = .answer a? ∧ (s.beginAll net before).Converts net q a? := by
  have hforetold := h.foretold_asked hr
  rw [Job.plan_convert] at hforetold
  exact converts_of_foretold (h.beginAll before).stocked hforetold

/-- What is answered later to a conversion that begins now is what the prices make it now. -/
theorem InUse.converts_run (h : s.InUse net o fx crypto timeout jobs) {q : Query}
    {later : List Event} {result : Option Result}
    (hmem : (s.begun, result) ∈ ((s.begin net (.convert q)).run net later).2) :
    ∃ a?, result = some (.answer a?) ∧ s.Converts net q a? := by
  have htracks := tracks_begin h.sound.toRecords h.fed h.waiters (.convert q)
  have hkeeps := (h.sound.begin (.convert q)).toKeeps
  rw [Job.plan_convert] at htracks
  obtain ⟨r, rfl, hr⟩ := Tracks.foretold_run ⟨hkeeps, htracks⟩ hmem
  obtain ⟨a?, rfl, hconverts⟩ := converts_of_foretold h.stocked hr
  exact ⟨a?, rfl, hconverts⟩

/-- A query that comes to a conversion is answered with what the prices make it when it is asked, if
    they are had. -/
theorem InUse.converts_ask (h : s.InUse net o fx crypto timeout jobs) {query : String} {q : Query}
    (hplan : queryPlan query = conversionPlan q)
    (hprices : ∀ a b, Alias.asset? q.source = some a → Alias.asset? q.target = some b → a ≠ b →
      (s.dollarPrice? net a).isSome = true ∧ (s.dollarPrice? net b).isSome = true) :
    ∃ a?, (s.ask net (.answer query)).2 = some (.answer a?) ∧ s.Converts net q a? := by
  have hjob : (Job.answer query).plan = conversionPlan q := hplan
  obtain ⟨r, hr⟩ := Option.isSome_iff_exists.mp <|
    (h.isSome_asked_iff [] [] (.answer query)).mpr (hjob ▸ (ends_conversionPlan_iff q).mpr hprices)
  obtain ⟨a?, rfl, hconverts⟩ := converts_of_foretold h.stocked (hjob ▸ h.foretold_asked hr)
  rw [ask_snd]
  exact ⟨a?, hr, hconverts⟩

/-- Where both phrases name one asset, neither cache is touched and nothing is sent. -/
theorem begin_of_same {q : Query} (hsame : Alias.asset? q.source = Alias.asset? q.target) :
    (s.begin net (.convert q)).fiat = s.fiat ∧ (s.begin net (.convert q)).crypto = s.crypto ∧
      (s.begin net (.convert q)).sent = s.sent := by
  have hlookups : (Job.convert q).plan.lookups = [] := by
    rw [Job.plan_convert]
    cases ha : Alias.asset? q.source with
    | none => rw [conversionPlan_unnamed (.inl ha)]; rfl
    | some a => rw [conversionPlan_same ha (hsame ▸ ha)]; rfl
  rw [begin_eq, hlookups]
  exact ⟨rfl, rfl, rfl⟩

/-- **Monetary conversion end to end.** In every state that a service with feeds can reach, over any
    network and whatever other jobs are asked together with it, a conversion of money is answered
    with the amount times the quotient of the prices that its lookups yield when it begins, or with
    nothing where there is no such number.  It comes to an end exactly if the lookups of its prices
    do.  The same holds of a conversion that is left to itself, whatever happens later.  Where both
    phrases name one asset, no price is looked up. -/
theorem run_converts (fx crypto : Feed) (f c timeout : Float) (fiatSpan cryptoSpan : Span)
    (net : Network) (events : List Event) (before after : List Job) (q : Query) :
    let s := ((withLifetimes (.ofFeeds fx crypto f c timeout) fiatSpan cryptoSpan).run net events).1
    let now := s.beginAll net before
    (∃ result, (s.askAll net (before ++ .convert q :: after)).2[before.length]? = some result ∧
        (result.isSome = true ↔
          ∀ a b, Alias.asset? q.source = some a → Alias.asset? q.target = some b → a ≠ b →
            (now.dollarPrice? net a).isSome = true ∧ (now.dollarPrice? net b).isSome = true) ∧
        ∀ r, result = some r → ∃ a?, r = .answer a? ∧ now.Converts net q a?) ∧
      (∀ later result, (now.begun, result) ∈ ((now.begin net (.convert q)).run net later).2 →
        ∃ a?, result = some (.answer a?) ∧ now.Converts net q a?) ∧
      (Alias.asset? q.source = Alias.asset? q.target →
        (now.begin net (.convert q)).fiat = now.fiat ∧
          (now.begin net (.convert q)).crypto = now.crypto ∧
            (now.begin net (.convert q)).sent = now.sent) := by
  intro s now
  have hs := inUse_run fx crypto f c timeout fiatSpan cryptoSpan net events
  have hnow := hs.beginAll before
  refine ⟨⟨_, getElem?_askAll s net before after (.convert q), ?_, ?_⟩, ?_, begin_of_same⟩
  · exact (hs.isSome_asked_iff before after (.convert q)).trans (ends_conversionPlan_iff q)
  · intro r hr
    exact hs.converts_asked hr
  · intro later result hmem
    exact hnow.converts_run hmem

end Service

end Reckoner
