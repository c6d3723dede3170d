import Reckoner.Alias.Index
import Reckoner.Answer
import Reckoner.Arithmetic.Calculation
import Reckoner.Number.Display
import Reckoner.Query.Basic

/-!
# Answers without rates

* `scaleConversion?`, `unitConversion?` — the answer to a conversion between two temperature scales
  or two units.
* `conversion?` — the answer to a query whose phrases are two scales, or two units of one dimension.
* `offlineAnswer?` — the answer to a typed query that needs no rates: a conversion, or else a
  calculation.
-/

namespace Reckoner

open Reckoner.Number Reckoner.Text

/-- An amount with the symbol of its unit. -/
def withSymbol (x : Float) (symbol : String) : String := showFloat x ++ " " ++ symbol

/-- The answer to a conversion between two temperature scales, if it is finite. -/
def scaleConversion? (amount : Float) (source target : Scale) : Option Answer :=
  let result := Scale.convert amount source target
  if result.isFinite then
    some ⟨withSymbol amount source.symbol, source.label, withSymbol result target.symbol,
      target.label⟩
  else none

/-- The answer to a conversion between two units, if it is finite. -/
def unitConversion? (amount : Float) (source target : Measure) : Option Answer :=
  let result := Measure.convert amount source target
  if result.isFinite then
    some ⟨withSymbol amount source.symbol, source.label, withSymbol result target.symbol,
      target.label⟩
  else none

/-- The answer to a query between two temperature scales, or between two units of one dimension. -/
def conversion? (q : Query) : Option Answer :=
  match Alias.scale? q.source, Alias.scale? q.target with
  | some source, some target => scaleConversion? q.amount source target
  | none, none =>
    match Alias.unit? q.source, Alias.unit? q.target with
    | some (d, source), some (e, target) =>
      if d = e then unitConversion? q.amount source target else none
    | _, _ => none
  | _, _ => none

/-- The length from which a text is taken for a query, blanks at its ends aside. -/
def shortestQuery : Nat := 2

/-- Whether a text is long enough for a query. -/
def isLongEnough (query : String) : Bool := shortestQuery ≤ (trim query.toList).length

/-- The answer to a typed query that needs no rates. -/
def offlineAnswer? (query : String) : Option Answer :=
  if isLongEnough query then
    ((Query.read? query).bind conversion?).or (Arithmetic.calculation? query)
  else none

end Reckoner
