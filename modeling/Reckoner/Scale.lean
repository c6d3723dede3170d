/-!
# Temperature scales

* `Scale` — the temperature scales.
* `Scale.aliases` — what they may be called.
* `Scale.convert` — a temperature of one scale on another one, by way of Celsius.
-/

namespace Reckoner

/-- The temperature scales. -/
inductive Scale where
  | celsius | fahrenheit | kelvin
deriving DecidableEq

namespace Scale

/-- All scales, in the order in which they are listed. -/
def all : List Scale := [.celsius, .fahrenheit, .kelvin]

/-- The letter of a scale. -/
def key : Scale → String
  | .celsius => "c"
  | .fahrenheit => "f"
  | .kelvin => "k"

/-- The name of a scale. -/
def label : Scale → String
  | .celsius => "Celsius"
  | .fahrenheit => "Fahrenheit"
  | .kelvin => "Kelvin"

/-- The symbol that follows a temperature. -/
def symbol : Scale → String
  | .celsius => "°C"
  | .fahrenheit => "°F"
  | .kelvin => "K"

/-- What a scale may be called. -/
def aliases : Scale → List String
  | .celsius =>
    ["c", "celsius", "centigrade", "deg c", "degree celsius", "degrees celsius"]
  | .fahrenheit => ["f", "fahrenheit", "deg f", "degree fahrenheit", "degrees fahrenheit"]
  | .kelvin => ["k", "kelvin", "kelvins"]

/-- The temperature of zero degrees Celsius on the Kelvin scale. -/
def kelvinOffset : Float := 273.15

/-- A temperature on the Celsius scale. -/
def toCelsius (x : Float) : Scale → Float
  | .celsius => x
  | .fahrenheit => (x - 32) * (5 / 9)
  | .kelvin => x - kelvinOffset

/-- A temperature given on the Celsius scale. -/
def ofCelsius (x : Float) : Scale → Float
  | .celsius => x
  | .fahrenheit => x * (9 / 5) + 32
  | .kelvin => x + kelvinOffset

/-- A temperature on the scale `source` as one on the scale `target`. -/
def convert (x : Float) (source target : Scale) : Float :=
  if source = target then x else ofCelsius (toCelsius x source) target

end Scale

end Reckoner
