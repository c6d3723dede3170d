/-!
# Monetary assets

* `AssetKind` — fiat currencies, and crypto assets with the name under which their price is quoted.
* `Asset` — a currency or crypto asset.
* `Asset.same` — whether two assets are one.
-/

namespace Reckoner

/-- The kinds of assets.  A crypto asset has the name under which its price is quoted; a stablecoin
    is held to be worth one dollar where no price can be had. -/
inductive AssetKind where
  | fiat
  | coin (quotedAs : String)
  | stablecoin (quotedAs : String)
deriving DecidableEq

namespace AssetKind

/-- Whether assets of this kind are crypto assets. -/
def isCrypto : AssetKind → Bool
  | .fiat => false
  | .coin _ | .stablecoin _ => true

/-- Whether assets of this kind are stablecoins. -/
def isStable : AssetKind → Bool
  | .stablecoin _ => true
  | .fiat | .coin _ => false

/-- The name under which the price is quoted. -/
def quotedAs? : AssetKind → Option String
  | .fiat => none
  | .coin name | .stablecoin name => some name

/-- The name of the kind, in lower case and as a title. -/
def name (k : AssetKind) : String := if k.isCrypto then "crypto" else "fiat"

@[inherit_doc name]
def title (k : AssetKind) : String := if k.isCrypto then "Crypto" else "Fiat"

end AssetKind

/-- A currency or crypto asset. -/
structure Asset where
  kind : AssetKind
  code : String
  label : String
  symbol : String
  /-- What the asset may be called, besides its code. -/
  aliases : List String
deriving DecidableEq

namespace Asset

/-- The label of an asset in an answer. -/
def displayLabel (a : Asset) : String :=
  if a.kind.isCrypto then a.label ++ " (Crypto)" else a.label

/-- Whether two assets are one: they are both fiat or both crypto and have the same code. -/
def same (a b : Asset) : Bool := a.kind.isCrypto == b.kind.isCrypto && a.code == b.code

end Asset

end Reckoner
