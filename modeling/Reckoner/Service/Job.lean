import Reckoner.Asset.Amount
import Reckoner.Conversion
import Reckoner.Feed.Prices

/-!
# What a service can be asked

Every job comes down to a plan: its result is there at once, or follows from at most two lookups.

* `Job` — what a service can be asked.
* `PriceSource` — where a price comes from.
* `Plan` — what has to be looked up for a job, and what becomes of it.
* `Findings` — what lookups have found.
* `Plan.result` — the result of a plan, given the findings.
-/

namespace Reckoner

open Reckoner.Number

/-- What a service can be asked. -/
inductive Job where
  /-- The answer to a typed query. -/
  | answer (query : String)
  /-- The answer to a conversion of money. -/
  | convert (query : Query)
  /-- The rates of a currency. -/
  | rates (code : String)
  /-- How many units of one currency one unit of another one is. -/
  | rate (source target : String)
  /-- The price of a crypto asset in dollars. -/
  | price (code : String)
  /-- How many dollars one unit of an asset is. -/
  | dollars (asset : Asset)

/-- What comes of a job. -/
inductive Result where
  | answer (answer : Option Answer)
  | rates (table : Option RateTable)
  | price (price : Option Float)

/-- A lookup in one of the two caches. -/
inductive Lookup where
  /-- The rate table of a fiat currency. -/
  | rates (code : String)
  /-- The price of a crypto asset. -/
  | price (code : String)
deriving DecidableEq

/-- What lookups have found. -/
structure Findings where
  tables : Entries (Option RateTable)
  prices : Entries (Option Float)

/-- Whether a lookup has come to an end. -/
def Findings.has (f : Findings) : Lookup → Bool
  | .rates code => (f.tables.lookup code).isSome
  | .price code => (f.prices.lookup code).isSome

/-! ### Prices -/

/-- Where a price comes from. -/
inductive PriceSource where
  /-- It is known, or known not to be had. -/
  | known (price : Option Float)
  /-- It is a rate in the table of a currency. -/
  | rate (source target : String)
  /-- It is the price of a crypto asset; that of a stablecoin is one where none can be had. -/
  | coin (code : String) (stable : Bool)

/-- The code of the currency in which prices are given. -/
def dollarCode : String := "USD"

/-- Where the rate of one currency in another one comes from.  Codes may be in either case. -/
def rateSource (source target : String) : PriceSource :=
  let source := upperCode source
  let target := upperCode target
  if source = target then .known (some 1)
  else if (Asset.fiat? source).isSome then .rate source target
  else .known none

/-- Where the price of a crypto asset comes from.  The code may be in either case. -/
def coinSource (code : String) : PriceSource :=
  match Asset.crypto? (upperCode code) with
  | some asset => .coin asset.code asset.kind.isStable
  | none => .known none

/-- Where the price of an asset in dollars comes from. -/
def dollarSource (asset : Asset) : PriceSource :=
  if asset.kind.isCrypto then coinSource asset.code
  else if asset.code = dollarCode then .known (some 1)
  else rateSource asset.code dollarCode

/-- The rate of a currency in a table, if it is usable. -/
def rateIn (table : RateTable) (code : String) : Option Float :=
  (table.lookup code).filter fun rate => rate.isFinite && rate > 0

namespace PriceSource

/-- What has to be looked up for a price. -/
def lookup? : PriceSource → Option Lookup
  | .known _ => none
  | .rate source _ => some (.rates source)
  | .coin code _ => some (.price code)

/-- The price, given what the lookups have found. -/
def price (s : PriceSource) (f : Findings) : Option Float :=
  match s with
  | .known price => price
  | .rate source target => ((f.tables.lookup source).join).bind fun table => rateIn table target
  | .coin code stable => ((f.prices.lookup code).join).or (if stable then some 1 else none)

end PriceSource

/-! ### Plans -/

/-- What has to be looked up for a job, and what becomes of it. -/
inductive Plan where
  /-- Nothing: the answer is there. -/
  | answered (answer : Option Answer)
  /-- The rate table of a currency, if it is one. -/
  | rates (code : Option String)
  /-- A price. -/
  | price (source : PriceSource)
  /-- The prices of two different assets. -/
  | exchange (query : Query) (source target : Asset)

/-- The answer to a conversion of money. -/
def exchangeAnswer (amount converted : Float) (source target : Asset) : Answer :=
  ⟨source.amountText amount, source.displayLabel, target.amountText converted,
    target.displayLabel⟩

/-- The plan for a conversion of money.  No price is needed if both phrases name one asset. -/
def conversionPlan (q : Query) : Plan :=
  match Alias.asset? q.source, Alias.asset? q.target with
  | some source, some target =>
    if source.same target then .answered (some (exchangeAnswer q.amount q.amount source target))
    else .exchange q source target
  | _, _ => .answered none

/-- The plan for a typed query: the answer that needs no rates, or else a conversion of money. -/
def queryPlan (query : String) : Plan :=
  if isLongEnough query then
    match offlineAnswer? query with
    | some answer => .answered (some answer)
    | none =>
      match Query.read? query with
      | some q => conversionPlan q
      | none => .answered none
  else .answered none

/-- The plan for a job. -/
def Job.plan : Job → Plan
  | .answer query => queryPlan query
  | .convert q => conversionPlan q
  | .rates code =>
    let code := upperCode code
    .rates (if (Asset.fiat? code).isSome then some code else none)
  | .rate source target => .price (rateSource source target)
  | .price code => .price (coinSource code)
  | .dollars asset => .price (dollarSource asset)

namespace Plan

/-- What has to be looked up, in this order. -/
def lookups : Plan → List Lookup
  | .answered _ => []
  | .rates code => (code.map Lookup.rates).toList
  | .price source => source.lookup?.toList
  | .exchange _ source target =>
    (dollarSource source).lookup?.toList ++ (dollarSource target).lookup?.toList

/-- The answer to a conversion between assets with these prices, if it is finite. -/
def exchanged (q : Query) (source target : Asset) (sourcePrice targetPrice : Float) :
    Option Answer :=
  let converted := q.amount * (sourcePrice / targetPrice)
  if converted.isFinite then some (exchangeAnswer q.amount converted source target) else none

/-- The result of a plan, given what the lookups have found. -/
def result (p : Plan) (f : Findings) : Result :=
  match p with
  | .answered answer => .answer answer
  | .rates code => .rates (code.bind fun c => (f.tables.lookup c).join)
  | .price source => .price (source.price f)
  | .exchange q source target =>
    .answer (((dollarSource source).price f).bind fun x =>
      ((dollarSource target).price f).bind fun y => exchanged q source target x y)

end Plan

end Reckoner
