/-!
# Units of measure

* `Dimension` — what a unit measures.
* `Measure` — a unit, with its factor to the base unit of its dimension.
* `Measure.convert` — an amount of one unit as an amount of another one of the same dimension.
-/

namespace Reckoner

/-- What a unit measures. -/
inductive Dimension where
  | length | area | volume | mass | time | speed | pressure | energy | power | frequency | data
  | force
deriving DecidableEq

namespace Dimension

/-- All dimensions, in the order in which they are listed. -/
def all : List Dimension :=
  [.length, .area, .volume, .mass, .time, .speed, .pressure, .energy, .power, .frequency, .data,
   .force]

/-- The name of a dimension. -/
def name : Dimension → String
  | .length => "Length"
  | .area => "Area"
  | .volume => "Volume"
  | .mass => "Mass"
  | .time => "Time"
  | .speed => "Speed"
  | .pressure => "Pressure"
  | .energy => "Energy"
  | .power => "Power"
  | .frequency => "Frequency"
  | .data => "Data"
  | .force => "Force"

end Dimension

/-- A unit of measure. -/
structure Measure where
  /-- What the unit may be called. -/
  aliases : List String
  label : String
  symbol : String
  /-- How many base units of the dimension one of this unit is. -/
  toBase : Float
deriving DecidableEq

/-- An amount of `source` as an amount of `target`, through the base unit that they share. -/
def Measure.convert (amount : Float) (source target : Measure) : Float :=
  amount * source.toBase / target.toBase

end Reckoner
