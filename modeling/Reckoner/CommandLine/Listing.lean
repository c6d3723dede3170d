import Reckoner.Alias.Index
import Reckoner.CommandLine.Help
import Reckoner.Text.Case

/-!
# Lists of units, assets and meanings

* `unitList` — the units of one dimension, or of all, and the temperature scales.
* `assetList` — the currencies and crypto assets.
* `meaningList` — what a phrase stands for.
-/

namespace Reckoner.CommandLine

open Reckoner.Text

/-- A text filled up with blanks to a width. -/
def padded (width : Nat) (s : String) : String :=
  String.ofList (s.toList ++ List.replicate (width - s.length) ' ')

/-- Lines under a title, each at the end of a branch. -/
def branches : List String → List String
  | [] => []
  | [line] => ["  └─ " ++ line]
  | line :: rest => ("  ├─ " ++ line) :: branches rest

/-- Lines under a title. -/
def titled (title : String) (lines : List String) : List String := ("  " ++ title) :: branches lines

/-- The line on something that has a symbol, a label and aliases. -/
def unitLine (symbol label : String) (aliases : List String) : String :=
  padded 6 symbol ++ " " ++ padded 24 label ++ " " ++ ", ".intercalate aliases

/-- The name of a dimension or of temperature as a category, in lower case. -/
def categoryKey (name : String) : String := String.ofList (lower name.toList)

/-- The name under which temperature scales are listed. -/
def temperatureName : String := "Temperature"

/-- The units of the dimensions that are wanted, and the temperature scales if they are. -/
def unitLines (wanted : String → Bool) : List String :=
  ((Dimension.all.filter fun d => wanted (categoryKey d.name)).flatMap fun d =>
    titled d.name ((Measure.measuresOf d).map fun m => unitLine m.symbol m.label m.aliases) ++
      [""]) ++
    if wanted (categoryKey temperatureName) then
      titled temperatureName (Scale.all.map fun s => unitLine s.symbol s.label s.aliases)
    else []

/-- The units of a category, or of all where none is named, unless there is no such category. -/
def unitList (category : Option String) : Option (List String) :=
  match category.filter (· ≠ "") with
  | none => some (unitLines fun _ => true)
  | some name =>
    match unitLines fun key => key == categoryKey name with
    | [] => none
    | lines => some lines

/-- The line on an asset. -/
def assetLine (a : Asset) : String :=
  padded 6 a.code ++ " " ++ padded 5 a.symbol ++ " " ++ a.label ++
    if a.kind.isStable then " (stablecoin)" else ""

/-- The currencies and crypto assets, where one of the two lists may be left out. -/
def assetList (fiat crypto : Bool) : List String :=
  (if fiat then titled "Fiat" (Asset.fiatCurrencies.map assetLine) ++ [""] else []) ++
    if crypto then titled "Crypto" (Asset.cryptoAssets.map assetLine) ++ [""] else []

/-- The line on something that a phrase stands for. -/
def meaningLine (m : Alias.Meaning) : String :=
  let line (kind label symbol : String) : String :=
    "  ✓  " ++ kind ++ ": " ++ label ++ " (" ++ symbol ++ ")"
  match m with
  | .scale s => line temperatureName s.label s.symbol
  | .measure d m => line d.name m.label m.symbol
  | .asset a => line a.kind.title a.displayLabel a.code

/-- What a phrase stands for. -/
def meaningList (phrase : String) : List String := (Alias.meanings phrase).map meaningLine

end Reckoner.CommandLine
