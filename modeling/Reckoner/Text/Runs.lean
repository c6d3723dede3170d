/-!
# Runs of characters

* `mapRuns` — changes every maximal run of the characters of a class and leaves the rest of the
  text.
-/

namespace Reckoner.Text

/-- The changed form of a run whose characters come last one first.  No characters are no run. -/
def changedRun (f : List Char → List Char) : List Char → List Char
  | [] => []
  | c :: run => f (c :: run).reverse

/-- Changes every run of a text, where `run` holds the characters of a run that has begun before it,
    the last one first. -/
def mapRunsFrom (p : Char → Bool) (f : List Char → List Char) (run : List Char) :
    List Char → List Char
  | [] => changedRun f run
  | c :: s =>
    if p c then mapRunsFrom p f (c :: run) s else changedRun f run ++ c :: mapRunsFrom p f [] s

/-- Changes every maximal run of characters of the class `p`, and leaves the rest. -/
def mapRuns (p : Char → Bool) (f : List Char → List Char) (s : List Char) : List Char :=
  mapRunsFrom p f [] s

@[simp] theorem mapRuns_nil (p : Char → Bool) (f : List Char → List Char) : mapRuns p f [] = [] :=
  rfl

end Reckoner.Text
