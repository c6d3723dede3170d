import Reckoner.Asset.Basic
import Reckoner.Number.Display

/-!
# Amounts of money

* `Asset.decimals` — how many decimals an amount of an asset is shown with.
* `Asset.amountText` — an amount of an asset with its code.
-/

namespace Reckoner.Asset

open Reckoner.Number

/-- How many decimals an amount is shown with at most: for fiat currencies two from one up, four
    from a hundredth up and eight below; for crypto assets eight from one up and ten below. -/
def decimals (a : Asset) (amount : Float) : Nat :=
  if a.kind.isCrypto then if amount.abs ≥ 1 then 8 else 10
  else if amount.abs ≥ 1 then 2
  else if amount.abs ≥ 0.01 then 4
  else 8

/-- An amount of an asset, without its code. -/
def showAmount (a : Asset) (amount : Float) : String :=
  String.ofList (fixedFloat (a.decimals amount) amount)

/-- An amount of an asset with its code. -/
def amountText (a : Asset) (amount : Float) : String := a.showAmount amount ++ " " ++ a.code

end Reckoner.Asset
