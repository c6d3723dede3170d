/-!
# Answers

* `Answer` — what a query is answered with, as texts that are shown without further formatting.
-/

namespace Reckoner

/-- The answer to a query: what was asked and what came out, each with a label. -/
structure Answer where
  input : String
  inputLabel : String
  result : String
  resultLabel : String
deriving DecidableEq

end Reckoner
