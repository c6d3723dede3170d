import Reckoner.Alias.Key
import Reckoner.Alias.Table
import Reckoner.Asset.Catalogue
import Reckoner.Measure.Catalogue
import Reckoner.Scale

/-!
# What phrases stand for

* `units`, `scales`, `assets` — the three tables of keys.  Where two names have one key, the name
  that is listed first keeps it; fiat currencies are listed before crypto assets.
* `unit?`, `scale?`, `asset?` — what a phrase stands for as the name of a unit, of a temperature
  scale, or of a currency or crypto asset.
* `meanings` — everything that a phrase stands for.
-/

namespace Reckoner.Alias

open Reckoner.Text

/-! ### The tables -/

/-- Every name of a unit with its unit. -/
def unitNames : List (String × (Dimension × Measure)) :=
  Measure.catalogue.flatMap fun entry => entry.2.aliases.map fun name => (name, entry)

/-- Every name of a temperature scale with its scale. -/
def scaleNames : List (String × Scale) :=
  Scale.all.flatMap fun scale => scale.aliases.map fun name => (name, scale)

/-- Every name of an asset, its code in lower case first, with its asset. -/
def assetNames : List (String × Asset) :=
  (Asset.fiatCurrencies ++ Asset.cryptoAssets).flatMap fun asset =>
    (String.ofList (lower asset.code.toList) :: asset.aliases).map fun name => (name, asset)

/-- The table of the keys of names. -/
def tableOf {α : Type} (key : List Char → List Char) (names : List (String × α)) : Table α :=
  Table.insertAll [] (names.map fun (name, value) => (String.ofList (key name.toList), value))

/-- The keys of units. -/
def units : Table (Dimension × Measure) := tableOf unitKey unitNames

/-- The keys of temperature scales. -/
def scales : Table Scale := tableOf scaleKey scaleNames

/-- The keys of assets. -/
def assets : Table Asset := tableOf assetKey assetNames

/-! ### Looking phrases up -/

/-- The unit that a phrase names, with its dimension. -/
def unit? (phrase : String) : Option (Dimension × Measure) :=
  units.lookup (String.ofList (unitKey phrase.toList))

/-- The temperature scale that a phrase names. -/
def scale? (phrase : String) : Option Scale :=
  scales.lookup (String.ofList (scaleKey phrase.toList))

/-- The capital letters of a phrase in upper case. -/
def codeLetters (phrase : List Char) : List Char := (upper (trim phrase)).filter Char.isUpper

/-- The asset whose code the letters of a phrase are. -/
def assetByCode? (phrase : List Char) : Option Asset :=
  let letters := codeLetters phrase
  if 3 ≤ letters.length ∧ letters.length ≤ 5 then
    let code := String.ofList letters
    (Asset.fiat? code).or (Asset.crypto? code)
  else none

/-- The currency or crypto asset that a phrase names, by its key or else by the letters of its
    code. -/
def asset? (phrase : String) : Option Asset :=
  let key := assetKey phrase.toList
  if key = [] then none
  else (assets.lookup (String.ofList key)).or (assetByCode? phrase.toList)

/-- One thing that a phrase can stand for. -/
inductive Meaning where
  | scale (scale : Scale)
  | measure (dimension : Dimension) (measure : Measure)
  | asset (asset : Asset)

/-- Everything that a phrase stands for: a temperature scale, a unit and an asset, in this order. -/
def meanings (phrase : String) : List Meaning :=
  ((scale? phrase).map Meaning.scale).toList ++
    ((unit? phrase).map fun (d, m) => Meaning.measure d m).toList ++
    ((asset? phrase).map Meaning.asset).toList

end Reckoner.Alias
