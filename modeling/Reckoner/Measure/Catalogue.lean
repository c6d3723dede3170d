import Reckoner.Measure.Basic

/-!
# The units of measure

* `measuresOf` — the units of a dimension, in the order in which they are listed.
* `catalogue` — all units, dimension by dimension.
-/

namespace Reckoner.Measure

/-- The units of length, in metres. -/
def lengthUnits : List Measure :=
  [⟨["nm", "nanometer", "nanometers", "nanometre", "nanometres"], "Nanometers", "nm", 1e-9⟩,
   ⟨["um", "micrometer", "micrometers", "micrometre", "micrometres", "micron", "microns"],
      "Micrometers", "um", 1e-6⟩,
   ⟨["mm", "millimeter", "millimeters", "millimetre", "millimetres"], "Millimeters", "mm", 1e-3⟩,
   ⟨["cm", "centimeter", "centimeters", "centimetre", "centimetres"], "Centimeters", "cm", 1e-2⟩,
   ⟨["dm", "decimeter", "decimeters", "decimetre", "decimetres"], "Decimeters", "dm", 1e-1⟩,
   ⟨["m", "meter", "meters", "metre", "metres"], "Meters", "m", 1⟩,
   ⟨["dam", "decameter", "decameters", "dekameter", "dekameters"], "Decameters", "dam", 10⟩,
   ⟨["hm", "hectometer", "hectometers", "hectometre", "hectometres"], "Hectometers", "hm", 100⟩,
   ⟨["km", "kilometer", "kilometers", "kilometre", "kilometres"], "Kilometers", "km", 1000⟩,
   ⟨["in", "inch", "inches"], "Inches", "in", 0.0254⟩,
   ⟨["ft", "foot", "feet"], "Feet", "ft", 0.3048⟩,
   ⟨["yd", "yard", "yards"], "Yards", "yd", 0.9144⟩,
   ⟨["mi", "mile", "miles"], "Miles", "mi", 1609.344⟩,
   ⟨["nmi", "nautical mile", "nautical miles"], "Nautical Miles", "nmi", 1852⟩]

/-- The units of area, in square metres. -/
def areaUnits : List Measure :=
  [⟨["mm2", "sq mm", "square millimeter", "square millimeters", "square millimetre",
      "square millimetres"], "Square Millimeters", "mm²", 1e-6⟩,
   ⟨["cm2", "sq cm", "square centimeter", "square centimeters", "square centimetre",
      "square centimetres"], "Square Centimeters", "cm²", 1e-4⟩,
   ⟨["m2", "sq m", "square meter", "square meters", "square metre", "square metres"],
      "Square Meters", "m²", 1⟩,
   ⟨["ha", "hectare", "hectares"], "Hectares", "ha", 10000⟩,
   ⟨["km2", "sq km", "square kilometer", "square kilometers", "square kilometre",
      "square kilometres"], "Square Kilometers", "km²", 1000000⟩,
   ⟨["in2", "sq in", "square inch", "square inches"], "Square Inches", "in²", 0.00064516⟩,
   ⟨["ft2", "sq ft", "square foot", "square feet"], "Square Feet", "ft²", 0.09290304⟩,
   ⟨["yd2", "sq yd", "square yard", "square yards"], "Square Yards", "yd²", 0.83612736⟩,
   ⟨["acre", "acres"], "Acres", "ac", 4046.8564224⟩,
   ⟨["mi2", "sq mi", "square mile", "square miles"], "Square Miles", "mi²", 2589988.110336⟩]

/-- The units of volume, in litres. -/
def volumeUnits : List Measure :=
  [⟨["ul", "microliter", "microliters", "microlitre", "microlitres"], "Microliters", "uL", 1e-6⟩,
   ⟨["ml", "milliliter", "milliliters", "millilitre", "millilitres"], "Milliliters", "mL", 1e-3⟩,
   ⟨["cl", "centiliter", "centiliters", "centilitre", "centilitres"], "Centiliters", "cL", 1e-2⟩,
   ⟨["dl", "deciliter", "deciliters", "decilitre", "decilitres"], "Deciliters", "dL", 1e-1⟩,
   ⟨["l", "liter", "liters", "litre", "litres"], "Liters", "L", 1⟩,
   ⟨["hl", "hectoliter", "hectoliters", "hectolitre", "hectolitres"], "Hectoliters", "hL", 100⟩,
   ⟨["m3", "cu m", "cubic meter", "cubic meters", "cubic metre", "cubic metres"],
      "Cubic Meters", "m³", 1000⟩,
   ⟨["cm3", "cc", "cu cm", "cubic centimeter", "cubic centimeters", "cubic centimetre",
      "cubic centimetres"], "Cubic Centimeters", "cm³", 1e-3⟩,
   ⟨["mm3", "cu mm", "cubic millimeter", "cubic millimeters", "cubic millimetre",
      "cubic millimetres"], "Cubic Millimeters", "mm³", 1e-6⟩,
   ⟨["in3", "cu in", "cubic inch", "cubic inches"], "Cubic Inches", "in³", 0.016387064⟩,
   ⟨["ft3", "cu ft", "cubic foot", "cubic feet"], "Cubic Feet", "ft³", 28.316846592⟩,
   ⟨["gal", "gallon", "gallons", "us gallon", "us gallons"], "Gallons (US)", "gal", 3.785411784⟩,
   ⟨["qt", "quart", "quarts"], "Quarts", "qt", 0.946352946⟩,
   ⟨["pt", "pint", "pints"], "Pints", "pt", 0.473176473⟩,
   ⟨["cup", "cups"], "Cups", "cup", 0.2365882365⟩,
   ⟨["floz", "fl oz", "fluid ounce", "fluid ounces"], "Fluid Ounces", "fl oz", 0.0295735295625⟩,
   ⟨["tbsp", "tablespoon", "tablespoons"], "Tablespoons", "tbsp", 0.01478676478125⟩,
   ⟨["tsp", "teaspoon", "teaspoons"], "Teaspoons", "tsp", 0.00492892159375⟩]

/-- The units of mass, in grams. -/
def massUnits : List Measure :=
  [⟨["ug", "microgram", "micrograms"], "Micrograms", "ug", 1e-6⟩,
   ⟨["mg", "milligram", "milligrams"], "Milligrams", "mg", 1e-3⟩,
   ⟨["g", "gram", "grams"], "Grams", "g", 1⟩,
   ⟨["kg", "kilogram", "kilograms"], "Kilograms", "kg", 1000⟩,
   ⟨["t", "tonne", "tonnes", "metric ton", "metric tons"], "Metric Tonnes", "t", 1000000⟩,
   ⟨["oz", "ounce", "ounces"], "Ounces", "oz", 28.349523125⟩,
   ⟨["lb", "lbs", "pound", "pounds"], "Pounds", "lb", 453.59237⟩,
   ⟨["st", "stone", "stones"], "Stones", "st", 6350.29318⟩,
   ⟨["ton", "tons", "short ton", "short tons", "us ton", "us tons"],
      "Short Tons (US)", "ton", 907184.74⟩,
   ⟨["long ton", "long tons", "imperial ton", "imperial tons"],
      "Long Tons (Imperial)", "LT", 1016046.9088⟩]

/-- The units of time, in seconds. -/
def timeUnits : List Measure :=
  [⟨["ns", "nanosecond", "nanoseconds"], "Nanoseconds", "ns", 1e-9⟩,
   ⟨["us", "microsecond", "microseconds"], "Microseconds", "us", 1e-6⟩,
   ⟨["ms", "millisecond", "milliseconds"], "Milliseconds", "ms", 1e-3⟩,
   ⟨["s", "sec", "second", "seconds"], "Seconds", "s", 1⟩,
   ⟨["min", "minute", "minutes"], "Minutes", "min", 60⟩,
   ⟨["h", "hr", "hour", "hours"], "Hours", "h", 3600⟩,
   ⟨["day", "days", "d"], "Days", "day", 86400⟩,
   ⟨["week", "weeks", "wk"], "Weeks", "week", 604800⟩,
   ⟨["month", "months", "mo"], "Months (avg)", "month", 2629800⟩,
   ⟨["year", "years", "yr", "yrs", "y"], "Years (365.25 days)", "yr", 31557600⟩]

/-- The units of speed, in metres per second. -/
def speedUnits : List Measure :=
  [⟨["m/s", "mps", "meter/second", "meters/second", "metre/second", "metres/second"],
      "Meters per Second", "m/s", 1⟩,
   ⟨["km/h", "kmh", "kph", "kilometer/hour", "kilometers/hour", "kilometre/hour",
      "kilometres/hour"], "Kilometers per Hour", "km/h", 1000 / 3600⟩,
   ⟨["mph", "mile/hour", "miles/hour"], "Miles per Hour", "mph", 0.44704⟩,
   ⟨["kt", "kts", "knot", "knots", "kn"], "Knots", "kn", 1852 / 3600⟩,
   ⟨["ft/s", "fps", "foot/second", "feet/second"], "Feet per Second", "ft/s", 0.3048⟩]

/-- The units of pressure, in pascals. -/
def pressureUnits : List Measure :=
  [⟨["pa", "pascal", "pascals"], "Pascals", "Pa", 1⟩,
   ⟨["kpa", "kilopascal", "kilopascals"], "Kilopascals", "kPa", 1000⟩,
   ⟨["mpa", "megapascal", "megapascals"], "Megapascals", "MPa", 1000000⟩,
   ⟨["bar", "bars"], "Bar", "bar", 100000⟩,
   ⟨["mbar", "millibar", "millibars"], "Millibar", "mbar", 100⟩,
   ⟨["atm", "atmosphere", "atmospheres"], "Atmospheres", "atm", 101325⟩,
   ⟨["psi"], "PSI", "psi", 6894.757293168⟩,
   ⟨["torr", "mmhg"], "Torr", "Torr", 133.3223684211⟩]

/-- The units of energy, in joules. -/
def energyUnits : List Measure :=
  [⟨["j", "joule", "joules"], "Joules", "J", 1⟩,
   ⟨["kj", "kilojoule", "kilojoules"], "Kilojoules", "kJ", 1000⟩,
   ⟨["mj", "megajoule", "megajoules"], "Megajoules", "MJ", 1000000⟩,
   ⟨["cal", "calorie", "calories"], "Calories", "cal", 4.184⟩,
   ⟨["kcal", "kilocalorie", "kilocalories"], "Kilocalories", "kcal", 4184⟩,
   ⟨["wh", "watt hour", "watt hours"], "Watt-hours", "Wh", 3600⟩,
   ⟨["kwh", "kilowatt hour", "kilowatt hours"], "Kilowatt-hours", "kWh", 3600000⟩,
   ⟨["btu"], "BTU", "BTU", 1055.05585262⟩,
   ⟨["ev", "electronvolt", "electronvolts"], "Electronvolts", "eV", 1.602176634e-19⟩]

/-- The units of power, in watts. -/
def powerUnits : List Measure :=
  [⟨["w", "watt", "watts"], "Watts", "W", 1⟩,
   ⟨["kw", "kilowatt", "kilowatts"], "Kilowatts", "kW", 1000⟩,
   ⟨["mw", "megawatt", "megawatts"], "Megawatts", "MW", 1000000⟩,
   ⟨["gw", "gigawatt", "gigawatts"], "Gigawatts", "GW", 1000000000⟩,
   ⟨["hp", "horsepower"], "Horsepower", "hp", 745.6998715822702⟩]

/-- The units of frequency, in hertz. -/
def frequencyUnits : List Measure :=
  [⟨["hz", "hertz"], "Hertz", "Hz", 1⟩,
   ⟨["khz", "kilohertz"], "Kilohertz", "kHz", 1000⟩,
   ⟨["mhz", "megahertz"], "Megahertz", "MHz", 1000000⟩,
   ⟨["ghz", "gigahertz"], "Gigahertz", "GHz", 1000000000⟩]

/-- The units of data, in bytes. -/
def dataUnits : List Measure :=
  [⟨["bit", "bits"], "Bits", "bit", 0.125⟩,
   ⟨["b", "byte", "bytes"], "Bytes", "B", 1⟩,
   ⟨["kb", "kilobyte", "kilobytes"], "Kilobytes (decimal)", "KB", 1000⟩,
   ⟨["kib", "kibibyte", "kibibytes"], "Kibibytes (binary)", "KiB", 1024⟩,
   ⟨["mb", "megabyte", "megabytes"], "Megabytes (decimal)", "MB", 1000000⟩,
   ⟨["mib", "mebibyte", "mebibytes"], "Mebibytes (binary)", "MiB", 1048576⟩,
   ⟨["gb", "gigabyte", "gigabytes"], "Gigabytes (decimal)", "GB", 1000000000⟩,
   ⟨["gib", "gibibyte", "gibibytes"], "Gibibytes (binary)", "GiB", 1073741824⟩,
   ⟨["tb", "terabyte", "terabytes"], "Terabytes (decimal)", "TB", 1000000000000⟩,
   ⟨["tib", "tebibyte", "tebibytes"], "Tebibytes (binary)", "TiB", 1099511627776⟩,
   ⟨["pb", "petabyte", "petabytes"], "Petabytes (decimal)", "PB", 1000000000000000⟩,
   ⟨["pib", "pebibyte", "pebibytes"], "Pebibytes (binary)", "PiB", 1125899906842624⟩]

/-- The units of force, in newtons. -/
def forceUnits : List Measure :=
  [⟨["n", "newton", "newtons"], "Newtons", "N", 1⟩,
   ⟨["kilonewton", "kilonewtons", "kilo newton", "kilo newtons"], "Kilonewtons", "kN", 1000⟩,
   ⟨["lbf", "pound force", "pound-force"], "Pound-force", "lbf", 4.4482216152605⟩]

/-- The units of a dimension. -/
def measuresOf : Dimension → List Measure
  | .length => lengthUnits
  | .area => areaUnits
  | .volume => volumeUnits
  | .mass => massUnits
  | .time => timeUnits
  | .speed => speedUnits
  | .pressure => pressureUnits
  | .energy => energyUnits
  | .power => powerUnits
  | .frequency => frequencyUnits
  | .data => dataUnits
  | .force => forceUnits

/-- All units with their dimensions, in the order in which they are listed. -/
def catalogue : List (Dimension × Measure) :=
  Dimension.all.flatMap fun d => (measuresOf d).map fun m => (d, m)

end Reckoner.Measure
