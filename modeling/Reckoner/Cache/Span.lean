import Reckoner.Number.Binary

/-!
# Spans of time

Moments are numbers of seconds as floats hold them.  What is added to a moment is added as floats
are: the exact sum is rounded.  That a sum may be too large for a float is left out.

* `Span` — how long something lasts.
* `plus`, `later`, `after` — the sum of a moment and some seconds; the later one of two moments; the
  moment when some seconds have gone by.
* `Span.covers` — whether something that has begun at a moment still lasts.
* `Span.deadline?` — when something is over that begins at a moment.
* `Span.isVoid` — whether a span is over before it begins.
-/

namespace Reckoner

open Reckoner.Number

/-- How long something lasts. -/
inductive Span where
  | seconds (s : Rat)
  | endless
  /-- A span that is no number: nothing is less than it, and it is less than nothing. -/
  | undefined
deriving DecidableEq

/-- A moment and some seconds together, rounded as the sum of two floats is. -/
def plus (moment seconds : Rat) : Rat := rounded (moment + seconds)

/-- The later one of two moments. -/
def later (s t : Rat) : Rat := if s ≤ t then t else s

/-- The later one of two moments is not before the first one. -/
theorem le_later_left (s t : Rat) : s ≤ later s t := by
  unfold later
  split
  · assumption
  · exact Rat.le_refl

/-- Nor is it before the second one. -/
theorem le_later_right (s t : Rat) : t ≤ later s t := by
  unfold later
  split
  · exact Rat.le_refl
  · next hlt => exact (Rat.le_total).resolve_left hlt

/-- The moment when some seconds have gone by.  Time does not go backwards. -/
def after (moment seconds : Rat) : Rat := later moment (plus moment seconds)

/-- Time does not go backwards. -/
theorem le_after (moment seconds : Rat) : moment ≤ after moment seconds := le_later_left _ _

namespace Span

/-- The span of a number of seconds. -/
def ofFloat (x : Float) : Span :=
  match Binary.ofFloat? x with
  | some b => .seconds b.toRat
  | none => if x > 0 then .endless else if x < 0 then .seconds 0 else .undefined

/-- Whether what has begun at a moment still lasts now.  What lasts for no number of seconds never
    does. -/
def covers (s : Span) (start now : Rat) : Bool :=
  match s with
  | .seconds s => now < plus start s
  | .endless => true
  | .undefined => false

/-- When what begins at a moment is over, unless it has no end.  What lasts for no number of seconds
    is over at once. -/
def deadline? (s : Span) (start : Rat) : Option Rat :=
  match s with
  | .seconds s => some (after start s)
  | .endless => none
  | .undefined => some start

/-- Whether a span is over before it begins.  One that is no number is not, although it is over as
    soon as it has begun. -/
def isVoid : Span → Bool
  | .seconds s => s ≤ 0
  | .endless | .undefined => false

end Span

end Reckoner
