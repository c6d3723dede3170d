import Reckoner.Feed.Basic
import Reckoner.Number.Display
import Reckoner.Text.Case

/-!
# Rates and prices in replies

A number is usable as a rate or price if it is finite and positive.

* `usable?` — the rate or price that a JSON value is.
* `ratesIn` — the usable rates of a reply, under their codes in upper case.
* `priceIn` — the usable price of an asset in a reply.
* `Feed.rateTable`, `Feed.prices`, `Feed.price` — what a feed is asked for, read off a reply.
* `Feed.fetchPrices` — asks a feed for the prices of assets.
-/

namespace Reckoner

open Reckoner.Number Reckoner.Text

/-- The rates of a currency: how many units of other currencies one unit of it is. -/
abbrev RateTable := Entries Float

/-- Why a rate or price cannot be read: a whole number is too large for a float. -/
structure TooLarge where
deriving DecidableEq

/-- The wording of the error. -/
def TooLarge.message (_ : TooLarge) : String := DisplayError.message .tooLarge

/-- The rate or price that a JSON value is, if it is a finite positive number. -/
def usable? : Json → Except TooLarge (Option Float)
  | .int n =>
    if (Float.ofInt n).isInf then .error ⟨⟩
    else .ok (if 0 < n then some (Float.ofInt n) else none)
  | .float x => .ok (if x.isFinite && x > 0 then some x else none)
  | _ => .ok none

/-- A code in upper case. -/
def upperCode (code : String) : String := String.ofList (upper code.toList)

/-- Adds the usable rates among members to a table.  Of two rates with one code the later one
    stays. -/
def addRates (table : RateTable) : Members → Except TooLarge RateTable
  | [] => .ok table
  | (code, value) :: rest => do
    match ← usable? value with
    | some rate => addRates (table.put (upperCode code) rate) rest
    | none => addRates table rest

/-- The usable rates of a reply, unless it has no object of rates. -/
def ratesIn (data : Members) : Except TooLarge (Option RateTable) :=
  match data.lookup "rates" with
  | some (.obj rates) => (addRates [] rates).map some
  | _ => .ok none

/-- The usable price in dollars of an asset in a reply. -/
def priceIn (data : Members) (name : String) : Except TooLarge (Option Float) :=
  match data.lookup name with
  | some (.obj quote) => usable? ((quote.lookup "usd").getD .null)
  | _ => .ok none

/-- Adds the usable prices of assets in a reply. -/
def addPrices (data : Members) (prices : Entries Float) :
    List String → Except TooLarge (Entries Float)
  | [] => .ok prices
  | name :: rest => do
    match ← priceIn data name with
    | some price => addPrices data (prices.put name price) rest
    | none => addPrices data prices rest

namespace Feed

/-- The request for the rates of a currency. -/
def ratesRequest (f : Feed) (code : String) : Request :=
  f.request "/latest" (some [("from", upperCode code)])

/-- The request for the prices of assets. -/
def pricesRequest (f : Feed) (names : List String) : Request :=
  f.request "/simple/price" (some [("ids", ",".intercalate names), ("vs_currencies", "usd")])

/-- The rates of a currency in a reply, with the currency itself at one. -/
def rateTable (f : Feed) (code : String) (reply : Reply) : Except TooLarge (Option RateTable) :=
  match f.dataOf reply with
  | .error _ => .ok none
  | .ok (_, data) => do
    let table ← ratesIn data
    return table.map fun t => t.put (upperCode code) 1

/-- The prices of assets in a reply.  Those without a usable price are left out. -/
def prices (f : Feed) (names : List String) (reply : Reply) :
    Except TooLarge (Option (Entries Float)) :=
  match f.dataOf reply with
  | .error _ => .ok none
  | .ok (_, data) => (addPrices data [] names).map some

/-- The price of one asset in a reply. -/
def price (f : Feed) (name : String) (reply : Reply) : Except TooLarge (Option Float) := do
  let prices ← f.prices [name] reply
  return prices.bind (·.lookup name)

/-- Asks for the prices of assets, where `send` says how a request ends, and gives what comes of it
    with the requests that were sent.  Where there are no assets, nothing is asked. -/
def fetchPrices (f : Feed) (send : Request → Reply) (names : List String) :
    Except TooLarge (Option (Entries Float)) × List Request :=
  if names.isEmpty then (.ok (some []), [])
  else
    let request := f.pricesRequest names
    (f.prices names (send request), [request])

end Feed

end Reckoner
