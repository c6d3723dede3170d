import Reckoner.Query.Literal
import Reckoner.Query.Phrase

/-!
# Conversion queries

A conversion query is an amount, a phrase, a separator and a second phrase, such as `5 km to miles`;
or a currency symbol, an amount, a separator and a phrase, such as `$50 in EUR`.

* `Query` — a conversion query in its parts.
* `queryText` — the text of a query without the blanks and question marks around it.
* `plainForm?`, `symbolForm?` — the parts of a text in either form.
* `read?` — the query that a text stands for.
-/

namespace Reckoner

/-- A conversion query: an amount, what it is an amount of, and what to convert it to. -/
structure Query where
  /-- The amount as it was typed. -/
  amountText : String
  amount : Float
  source : String
  target : String

namespace Query

open Reckoner.Text

/-- The parts of a conversion query as they were typed. -/
structure Parts where
  amount : List Char
  source : List Char
  target : List Char
deriving DecidableEq

/-- The ways to take blanks from the head of a text, the most first. -/
def blankRuns : List Char → List Split
  | [] => [([], [])]
  | c :: s => (if isBlank c then (blankRuns s).map (Split.after [c]) else []) ++ [([], c :: s)]

/-- The parts of a text that begins with an amount: the first amount, with the most blanks behind it
    and the shortest first phrase, that leaves two phrases. -/
def plainForm? (s : List Char) : Option Parts :=
  (amounts s).findSome? fun (amount, s) =>
    (blankRuns s).findSome? fun (_, s) =>
      (phrasePair? s).map fun (source, target) => ⟨amount, source, target⟩

/-- The parts of a text that begins with a currency symbol: the first amount behind it that leaves
    one phrase. -/
def symbolForm? : List Char → Option Parts
  | [] => none
  | symbol :: s =>
    if symbol ∈ currencySymbols then
      (amounts (trimStart s)).findSome? fun (amount, s) =>
        (targetPhrase? s).map fun target => ⟨amount, [symbol], target⟩
    else none

/-- The text of a query without the blanks around it and the question marks at its end. -/
def queryText (s : List Char) : List Char :=
  trim ((trim s).reverse.dropWhile (· == '?')).reverse

/-- The parts of a text in either form. -/
def parts? (s : List Char) : Option Parts := (plainForm? s).or (symbolForm? s)

/-- The query with the given parts, unless its amount is too large for a float. -/
def ofParts? (p : Parts) : Option Query :=
  (amountValue? p.amount).map fun value =>
    ⟨String.ofList p.amount, value, String.ofList (trim p.source), String.ofList (trim p.target)⟩

/-- The query that a text stands for. -/
def read? (s : String) : Option Query := (parts? (queryText s.toList)).bind ofParts?

end Query

end Reckoner
