import Tabletop.Measure.Family

/-!
# Standard measurements

The six dimensions that sheets know, with their families of units and how simple the fractions are
that simplification leaves, and beside them kinds of measurement declared by a user.
-/

namespace Tabletop

/-- What is measured. -/
inductive Dimension where
  | distance
  | area
  | duration
  | volume
  | weight
  | money
deriving DecidableEq, Repr

namespace Dimension

/-- The name of a dimension. -/
def name : Dimension → String
  | .distance => "distance"
  | .area => "area"
  | .duration => "duration"
  | .volume => "volume"
  | .weight => "weight"
  | .money => "money"

/-- All dimensions. -/
def all : List Dimension := [.distance, .area, .duration, .volume, .weight, .money]

/-- Denominators below this are kept when an amount is simplified. -/
def level : Dimension → Int
  | .distance => 3
  | .area => 5
  | .duration => 5
  | .volume => 5
  | .weight => 5
  | .money => 1

/-- Feet and miles, or meters. -/
def distanceFamily : Family :=
  ⟨[⟨"Feet", 1, 1,
      [⟨"mi", "mi", 5280, 1, ["mile", "miles"]⟩,
       ⟨"ft", "ft", 1, 1, ["foot", "feet"]⟩,
       ⟨"in", "in", 1, 12, ["inch", "inches"]⟩]⟩,
    ⟨"Metric", 2, 5,
      [⟨"km", "km", 1000, 1, ["kilometer", "kilometers"]⟩,
       ⟨"m", "m", 1, 1, ["meter", "meters"]⟩,
       ⟨"cm", "cm", 1, 100, ["centimeter", "centimeters"]⟩]⟩]⟩

/-- Square feet, or square meters. -/
def areaFamily : Family :=
  ⟨[⟨"Feet", 1, 1,
      [⟨"sq yd", "sq yd", 9, 1, ["square yard", "square yards"]⟩,
       ⟨"sq ft", "sq ft", 1, 1, ["square foot", "square feet"]⟩,
       ⟨"sq in", "sq in", 1, 144, ["square inch", "square inches"]⟩]⟩,
    ⟨"Metric", 1, 25,
      [⟨"sq m", "sq m", 1, 1, ["square meter", "square meters"]⟩,
       ⟨"sq dm", "sq dm", 1, 100, ["square decimeter", "square decimeters"]⟩,
       ⟨"sq cm", "sq cm", 1, 10000, ["square centimeter", "square centimeters"]⟩]⟩]⟩

/-- Real time, combat rounds, or rounds with their actions. -/
def durationFamily : Family :=
  ⟨[⟨"Seconds", 1, 1,
      [⟨"day", "days", 86400, 1, []⟩,
       ⟨"hour", "hours", 3600, 1, ["hr", "hrs"]⟩,
       ⟨"minute", "minutes", 60, 1, ["min", "mins"]⟩,
       ⟨"second", "seconds", 1, 1, ["sec", "secs"]⟩]⟩,
    ⟨"Rounds", 1, 6,
      [⟨"round", "rounds", 1, 1, ["rd", "rds"]⟩]⟩,
    ⟨"Actions", 1, 6,
      [⟨"round", "rounds", 1, 1, ["rd", "rds"]⟩,
       ⟨"standard action", "standard actions", 1, 10, []⟩,
       ⟨"move action", "move actions", 1, 100, []⟩,
       ⟨"swift action", "swift actions", 1, 1000, []⟩,
       ⟨"free action", "free actions", 1, 10000, []⟩]⟩]⟩

/-- Cubic feet, cubic meters, gallons, or liters. -/
def volumeFamily : Family :=
  ⟨[⟨"Feet", 1, 1,
      [⟨"cu ft", "cu ft", 1, 1, ["cubic foot", "cubic feet"]⟩,
       ⟨"cu in", "cu in", 1, 1728, ["cubic inch", "cubic inches"]⟩]⟩,
    ⟨"Metric", 1, 25,
      [⟨"cu m", "cu m", 1, 1, ["cubic meter", "cubic meters"]⟩,
       ⟨"cu dm", "cu dm", 1, 1000, ["cubic decimeter", "cubic decimeters"]⟩]⟩,
    ⟨"Gallons", 15, 2,
      [⟨"gallon", "gallons", 1, 1, []⟩,
       ⟨"quart", "quarts", 1, 4, []⟩,
       ⟨"pint", "pints", 1, 8, []⟩,
       ⟨"cup", "cups", 1, 16, []⟩,
       ⟨"ounce", "ounces", 1, 128, ["oz"]⟩]⟩,
    ⟨"Liters", 30, 1,
      [⟨"l", "l", 1, 1, ["liter", "liters"]⟩,
       ⟨"dl", "dl", 1, 10, ["deciliter", "deciliters"]⟩,
       ⟨"cl", "cl", 1, 100, ["centiliter", "centiliters"]⟩]⟩]⟩

/-- Pounds, metric weights, or carats. -/
def weightFamily : Family :=
  ⟨[⟨"Pounds", 1, 1,
      [⟨"lb", "lbs", 1, 1, ["pounds", "pound"]⟩,
       ⟨"oz", "oz", 1, 16, ["ounces", "ounce"]⟩]⟩,
    ⟨"Metric", 1, 2,
      [⟨"t", "t", 1000, 1, ["tons", "ton"]⟩,
       ⟨"kg", "kg", 1, 1, ["kilo", "kilos", "kilograms", "kilogram"]⟩,
       ⟨"g", "g", 1, 1000, ["grams", "gram"]⟩]⟩,
    ⟨"Carat", 2500, 1,
      [⟨"ct", "ct", 1, 1, ["carats", "carat"]⟩]⟩]⟩

/-- The coins of the standard currency. -/
def moneyFamily : Family :=
  ⟨[⟨"D&D", 1, 1,
      [⟨"pp", "pp", 10, 1, ["platinum", "platinums", "platinum piece", "platinum pieces"]⟩,
       ⟨"gp", "gp", 1, 1, ["gold", "golds", "gold piece", "gold pieces"]⟩,
       ⟨"sp", "sp", 1, 10, ["silver", "silvers", "silver piece", "silver pieces"]⟩,
       ⟨"cp", "cp", 1, 100, ["copper", "coppers", "copper piece", "copper pieces"]⟩]⟩]⟩

/-- The units of a dimension. -/
def family : Dimension → Family
  | .distance => distanceFamily
  | .area => areaFamily
  | .duration => durationFamily
  | .volume => volumeFamily
  | .weight => weightFamily
  | .money => moneyFamily

end Dimension

/-- A kind of measurement. -/
inductive Kind where
  | standard (dimension : Dimension)
  /-- A kind that a user declared, with its name, its level and its units. -/
  | declared (name : String) (level : Int) (family : Family)
deriving DecidableEq, Repr

namespace Kind

/-- The name of a kind. -/
def name : Kind → String
  | .standard d => d.name
  | .declared name _ _ => name

/-- Denominators below this are kept when an amount is simplified. -/
def level : Kind → Int
  | .standard d => d.level
  | .declared _ level _ => level

/-- The units of a kind. -/
def family : Kind → Family
  | .standard d => d.family
  | .declared _ _ family => family

end Kind

end Tabletop
