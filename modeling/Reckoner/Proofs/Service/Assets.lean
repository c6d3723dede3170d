import Mathlib.Data.List.Nodup
import Reckoner.Service.Job

/-!
# Assets and what is looked up for them

Every phrase that names an asset names one that is listed.  A listed asset is told by its code, and
the price of each is one lookup of its own; only the dollar needs none.

* `Asset.IsListed` — the fiat currencies and the crypto assets.
* `Alias.isListed_of_asset?` — what a phrase names is listed.
* `dollarSource_fiat`, `dollarSource_crypto` — where the price of a listed asset comes from.
* `Asset.lookup?`, `Asset.IsListed.lookup?_dollarSource` — what is looked up for it.
* `Asset.IsListed.asset?_of_lookup?` — a lookup tells which asset it is for.
* `Plan.IsTidy`, `Job.isTidy_plan` — every job looks up listed assets only, and none twice.
-/

namespace Reckoner

/-! ### Listed assets -/

namespace Asset

/-- An asset that is listed. -/
def IsListed (a : Asset) : Prop := a ∈ fiatCurrencies ∨ a ∈ cryptoAssets

/-- A listed fiat currency is the one with its code, which is in upper case. -/
theorem fiat?_code : ∀ a ∈ fiatCurrencies,
    a.kind.isCrypto = false ∧ fiat? a.code = some a ∧ upperCode a.code = a.code := by
  decide +kernel

/-- A listed crypto asset is the one with its code, which is in upper case, and its price is quoted
    under a name of its own. -/
theorem crypto?_code : ∀ a ∈ cryptoAssets,
    a.kind.isCrypto = true ∧ crypto? a.code = some a ∧ upperCode a.code = a.code := by
  decide +kernel

/-- The asset with a code is listed, and has this code. -/
theorem fiat?_eq_some {code : String} {a : Asset} (h : fiat? code = some a) :
    a ∈ fiatCurrencies ∧ a.code = code :=
  ⟨List.mem_of_find?_eq_some h, by simpa using List.find?_some h⟩

@[inherit_doc fiat?_eq_some]
theorem crypto?_eq_some {code : String} {a : Asset} (h : crypto? code = some a) :
    a ∈ cryptoAssets ∧ a.code = code :=
  ⟨List.mem_of_find?_eq_some h, by simpa using List.find?_some h⟩

/-- Whether two listed assets are one can be told from their codes. -/
theorem IsListed.same_iff {a b : Asset} (ha : a.IsListed) (hb : b.IsListed) :
    a.same b = true ↔ a = b := by
  constructor
  · intro h
    simp only [same, Bool.and_eq_true, beq_iff_eq] at h
    obtain ⟨hkind, hcode⟩ := h
    -- Currencies and crypto assets differ in their kind, and within each the code decides.
    rcases ha with ha | ha <;> rcases hb with hb | hb
    · have heq := (fiat?_code a ha).2.1.symm.trans (hcode ▸ (fiat?_code b hb).2.1)
      exact Option.some.inj heq
    · rw [(fiat?_code a ha).1, (crypto?_code b hb).1] at hkind
      cases hkind
    · rw [(crypto?_code a ha).1, (fiat?_code b hb).1] at hkind
      cases hkind
    · have heq := (crypto?_code a ha).2.1.symm.trans (hcode ▸ (crypto?_code b hb).2.1)
      exact Option.some.inj heq
  · rintro rfl
    simp [same]

end Asset

namespace Alias

/-- A table of the keys of names has what is named first by a name with the key. -/
theorem lookup_tableOf {α : Type} (key : List Char → List Char) (names : List (String × α))
    (k : String) :
    (tableOf key names).lookup k =
      if k = "" then none
      else (names.map fun (name, value) => (String.ofList (key name.toList), value)).lookup k := by
  rw [tableOf, Table.lookup_insertAll, List.lookup_nil, Option.none_or]

/-- What a table of the keys of names has under a key is one of the things that are named, and the
    key is that of a name of it. -/
theorem exists_of_lookup_tableOf {α : Type} {key : List Char → List Char}
    {names : List (String × α)} {k : String} {v : α} (h : (tableOf key names).lookup k = some v) :
    ∃ name, (name, v) ∈ names ∧ String.ofList (key name.toList) = k := by
  rw [lookup_tableOf] at h
  split_ifs at h
  obtain ⟨⟨name, value⟩, hname, hpair⟩ := List.mem_map.mp (mem_of_lookup_eq_some h)
  cases hpair
  exact ⟨name, hname, rfl⟩

/-- The names of some assets are names of these assets. -/
theorem mem_of_mem_names {assets : List Asset} {names : Asset → List String} {name : String}
    {a : Asset} (h : (name, a) ∈ assets.flatMap fun b => (names b).map fun name => (name, b)) :
    a ∈ assets := by
  obtain ⟨b, hb, hname⟩ := List.mem_flatMap.mp h
  obtain ⟨name', -, hpair⟩ := List.mem_map.mp hname
  cases hpair
  exact hb

/-- **What a phrase names is listed.** -/
theorem isListed_of_asset? {phrase : String} {a : Asset} (h : asset? phrase = some a) :
    a.IsListed := by
  unfold asset? at h
  dsimp only at h
  split_ifs at h
  obtain h | ⟨-, h⟩ := Option.or_eq_some_iff.mp h
  · -- The keys were registered for listed assets only.
    obtain ⟨name, hname, -⟩ := exists_of_lookup_tableOf h
    exact List.mem_append.mp (mem_of_mem_names hname)
  · unfold assetByCode? at h
    dsimp only at h
    split_ifs at h
    obtain h | ⟨-, h⟩ := Option.or_eq_some_iff.mp h
    · exact .inl (Asset.fiat?_eq_some h).1
    · exact .inr (Asset.crypto?_eq_some h).1

end Alias

/-! ### Lookups -/

/-- The listed asset that a lookup is for. -/
def Lookup.asset? : Lookup → Option Asset
  | .rates code => Asset.fiat? code
  | .price code => Asset.crypto? code

/-- A lookup for a listed asset. -/
def Lookup.IsListed (l : Lookup) : Prop := l.asset?.isSome = true

/-- What is looked up for the price of an asset in dollars, which is nothing for the dollar. -/
def Asset.lookup? (a : Asset) : Option Lookup :=
  if a.kind.isCrypto then some (.price a.code)
  else if a.code = dollarCode then none
  else some (.rates a.code)

/-- Where the price of a crypto asset comes from. -/
theorem dollarSource_crypto {a : Asset} (h : a ∈ Asset.cryptoAssets) :
    dollarSource a = .coin a.code a.kind.isStable := by
  obtain ⟨hkind, hcode, hupper⟩ := Asset.crypto?_code a h
  simp only [dollarSource, hkind, if_true, coinSource, hupper, hcode]

/-- Where the price of a fiat currency comes from. -/
theorem dollarSource_fiat {a : Asset} (h : a ∈ Asset.fiatCurrencies) :
    dollarSource a = if a.code = dollarCode then .known (some 1) else .rate a.code dollarCode := by
  obtain ⟨hkind, hcode, hupper⟩ := Asset.fiat?_code a h
  have hdollar : upperCode dollarCode = dollarCode := by decide +kernel
  by_cases hcode' : a.code = dollarCode
  · simp [dollarSource, hkind, hcode']
  · simp [dollarSource, hkind, hcode', rateSource, hupper, hdollar, hcode]

/-- What is looked up for the price of a listed asset. -/
theorem Asset.lookup?_fiat {a : Asset} (h : a ∈ fiatCurrencies) :
    a.lookup? = if a.code = dollarCode then none else some (.rates a.code) := by
  simp [lookup?, (fiat?_code a h).1]

@[inherit_doc Asset.lookup?_fiat]
theorem Asset.lookup?_crypto {a : Asset} (h : a ∈ cryptoAssets) :
    a.lookup? = some (.price a.code) := by
  simp [lookup?, (crypto?_code a h).1]

/-- **The lookup for the price of a listed asset.** -/
theorem Asset.IsListed.lookup?_dollarSource {a : Asset} (h : a.IsListed) :
    (dollarSource a).lookup? = a.lookup? := by
  rcases h with h | h
  · rw [dollarSource_fiat h, lookup?_fiat h]
    split_ifs <;> rfl
  · rw [dollarSource_crypto h, lookup?_crypto h]
    rfl

/-- **A lookup tells which asset it is for.** -/
theorem Asset.IsListed.asset?_of_lookup? {a : Asset} (h : a.IsListed) {l : Lookup}
    (hl : a.lookup? = some l) : l.asset? = some a := by
  rcases h with h | h
  · rw [lookup?_fiat h] at hl
    split_ifs at hl
    cases hl
    exact (fiat?_code a h).2.1
  · rw [lookup?_crypto h] at hl
    cases hl
    exact (crypto?_code a h).2.1

/-- The price of a crypto asset is looked up under the code of a listed one. -/
theorem isListed_of_mem_coinSource {code : String} {l : Lookup}
    (h : l ∈ (coinSource code).lookup?) : l.IsListed := by
  unfold coinSource at h
  split at h
  · next asset hasset =>
    cases h
    obtain ⟨hmem, -⟩ := Asset.crypto?_eq_some hasset
    exact Option.isSome_of_eq_some (Asset.crypto?_code asset hmem).2.1
  · cases h

/-- Rates are looked up for listed currencies only. -/
theorem isListed_of_mem_rateSource {source target : String} {l : Lookup}
    (h : l ∈ (rateSource source target).lookup?) : l.IsListed := by
  unfold rateSource at h
  dsimp only at h
  split_ifs at h with hsame hfiat
  · cases h
  · cases h
    exact hfiat
  · cases h

/-- The price of an asset in dollars is looked up for a listed asset only. -/
theorem isListed_of_mem_dollarSource {a : Asset} {l : Lookup}
    (h : l ∈ (dollarSource a).lookup?) : l.IsListed := by
  unfold dollarSource at h
  split_ifs at h
  · exact isListed_of_mem_coinSource h
  · cases h
  · exact isListed_of_mem_rateSource h

/-- **Lookups that can be told apart**: each is for a listed asset, and none is made twice. -/
structure Plan.IsTidy (p : Plan) : Prop where
  isListed : ∀ l ∈ p.lookups, l.IsListed
  nodup : p.lookups.Nodup

/-- An answer that is there already looks nothing up. -/
theorem Plan.isTidy_answered (a? : Option Answer) : (answered a?).IsTidy :=
  ⟨by simp [lookups], List.nodup_nil⟩

/-- A single price is looked up once. -/
theorem Plan.isTidy_price {source : PriceSource} (h : ∀ l ∈ source.lookup?, l.IsListed) :
    (price source).IsTidy where
  isListed l hl := h l (Option.mem_toList.mp hl)
  nodup := Option.toList_nodup _

/-- The prices of two different assets are looked up one after the other. -/
theorem Plan.lookups_exchange {a b : Asset} (ha : a.IsListed) (hb : b.IsListed) (q : Query) :
    (exchange q a b).lookups = a.lookup?.toList ++ b.lookup?.toList := by
  rw [lookups, ha.lookup?_dollarSource, hb.lookup?_dollarSource]

/-- **Two assets have two lookups**, and these are for different codes or in different caches. -/
theorem Plan.isTidy_exchange {a b : Asset} (ha : a.IsListed) (hb : b.IsListed) (hne : a ≠ b)
    (q : Query) : (exchange q a b).IsTidy where
  isListed l hl := by
    rw [lookups_exchange ha hb] at hl
    rcases List.mem_append.mp hl with hl | hl
    · exact Option.isSome_of_eq_some (ha.asset?_of_lookup? (Option.mem_toList.mp hl))
    · exact Option.isSome_of_eq_some (hb.asset?_of_lookup? (Option.mem_toList.mp hl))
  nodup := by
    rw [lookups_exchange ha hb]
    refine (Option.toList_nodup _).append (Option.toList_nodup _) fun l hl hl' => hne ?_
    have hla := ha.asset?_of_lookup? (Option.mem_toList.mp hl)
    have hlb := hb.asset?_of_lookup? (Option.mem_toList.mp hl')
    exact Option.some.inj (hla.symm.trans hlb)

/-- A conversion that is asked for is planned as such. -/
theorem Job.plan_convert (q : Query) : (Job.convert q).plan = conversionPlan q := rfl

/-- The plan for a conversion where a phrase names no asset. -/
theorem conversionPlan_unnamed {q : Query}
    (h : Alias.asset? q.source = none ∨ Alias.asset? q.target = none) :
    conversionPlan q = .answered none := by
  unfold conversionPlan
  split
  · next a b ha hb => simp [ha, hb] at h
  · rfl

/-- The plan for a conversion where both phrases name one asset. -/
theorem conversionPlan_same {q : Query} {a : Asset} (ha : Alias.asset? q.source = some a)
    (hb : Alias.asset? q.target = some a) :
    conversionPlan q = .answered (some (exchangeAnswer q.amount q.amount a a)) := by
  have hsame : a.same a = true := by simp [Asset.same]
  simp [conversionPlan, ha, hb, hsame]

/-- The plan for a conversion where the phrases name two different assets. -/
theorem conversionPlan_exchange {q : Query} {a b : Asset} (ha : Alias.asset? q.source = some a)
    (hb : Alias.asset? q.target = some b) (hne : a ≠ b) : conversionPlan q = .exchange q a b := by
  have hsame : a.same b = false := Bool.eq_false_iff.mpr fun hsame =>
    hne (((Alias.isListed_of_asset? ha).same_iff (Alias.isListed_of_asset? hb)).mp hsame)
  simp [conversionPlan, ha, hb, hsame]

/-- **The lookups of a conversion can be told apart**: where both phrases name one asset, there are
    none. -/
theorem Plan.isTidy_conversionPlan (q : Query) : (conversionPlan q).IsTidy := by
  cases ha : Alias.asset? q.source with
  | none => exact conversionPlan_unnamed (.inl ha) ▸ isTidy_answered _
  | some a =>
    cases hb : Alias.asset? q.target with
    | none => exact conversionPlan_unnamed (.inr hb) ▸ isTidy_answered _
    | some b =>
      by_cases hab : a = b
      · subst hab
        exact conversionPlan_same ha hb ▸ isTidy_answered _
      · rw [conversionPlan_exchange ha hb hab]
        exact isTidy_exchange (Alias.isListed_of_asset? ha) (Alias.isListed_of_asset? hb) hab q

/-- **The lookups of every job can be told apart.** -/
theorem Job.isTidy_plan (job : Job) : job.plan.IsTidy := by
  cases job with
  | answer query =>
    show (queryPlan query).IsTidy
    -- Only a query that is read as a conversion looks anything up.
    unfold queryPlan
    split_ifs
    · split
      · exact Plan.isTidy_answered _
      · split
        · exact Plan.isTidy_conversionPlan _
        · exact Plan.isTidy_answered _
    · exact Plan.isTidy_answered _
  | convert q => exact Plan.isTidy_conversionPlan q
  | rates code =>
    show (Plan.rates (if (Asset.fiat? (upperCode code)).isSome then _ else none)).IsTidy
    split_ifs with hfiat
    · refine ⟨?_, List.nodup_singleton _⟩
      intro l hl
      cases List.mem_singleton.mp hl
      exact hfiat
    · exact ⟨by simp [Plan.lookups], List.nodup_nil⟩
  | rate source target => exact Plan.isTidy_price fun l => isListed_of_mem_rateSource
  | price code => exact Plan.isTidy_price fun l => isListed_of_mem_coinSource
  | dollars a => exact Plan.isTidy_price fun l => isListed_of_mem_dollarSource

end Reckoner
