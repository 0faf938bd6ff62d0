import Tabletop.Measure.Basic

/-!
# Standard measures by name

The sets of the standard dimensions under their names, measures made of a single number, and the
totals asked for most.
-/

namespace Tabletop

/-- A length. -/
abbrev Distance := Measure (.standard .distance)

/-- A surface. -/
abbrev Area := Measure (.standard .area)

/-- A span of time. -/
abbrev Duration := Measure (.standard .duration)

/-- A volume. -/
abbrev Volume := Measure (.standard .volume)

/-- A weight. -/
abbrev Weight := Measure (.standard .weight)

/-- An amount for a single unit of the set at `index`. -/
def Measure.single (k : Kind) (index unit : Nat) (amount : Rational) : Measure k :=
  match k.family.sets[index]? with
  | some set => ⟨some index, (set.units.map fun _ => none).set unit (some amount), k.level⟩
  | none => .undefined

namespace Distance

/-- A number of feet. -/
def feet (n : Int) : Distance := .single _ 0 1 (.ofInt n)

/-- A number of meters. -/
def meters (n : Int) : Distance := .single _ 1 1 (.ofInt n)

/-- The length in miles, feet and inches. -/
def asFeet (m : Distance) : Distance := m.converted 0 true

/-- The length in metric units. -/
def asMetric (m : Distance) : Distance := m.converted 1 true

/-- The total in feet. -/
def inFeet (m : Distance) : Rational := m.valueIn 0

/-- The total in meters. -/
def inMeters (m : Distance) : Rational := m.valueIn 1

end Distance

namespace Area

/-- The surface in square yards, feet and inches. -/
def asFeet (m : Area) : Area := m.converted 0 true

/-- The surface in metric units. -/
def asMetric (m : Area) : Area := m.converted 1 true

end Area

namespace Duration

/-- A number of combat rounds. -/
def rounds (n : Int) : Duration := .single _ 1 0 (.ofInt n)

/-- The span in days, hours, minutes and seconds. -/
def asSeconds (m : Duration) : Duration := m.converted 0 true

/-- The span in combat rounds. -/
def asRounds (m : Duration) : Duration := m.converted 1 true

/-- The total in seconds. -/
def inSeconds (m : Duration) : Rational := m.valueIn 0

/-- The total in combat rounds. -/
def inRounds (m : Duration) : Rational := m.valueIn 1

end Duration

namespace Volume

/-- The volume in cubic feet and inches. -/
def asFeet (m : Volume) : Volume := m.converted 0 true

/-- The volume in metric units. -/
def asMetric (m : Volume) : Volume := m.converted 1 true

/-- The volume in gallons and smaller measures. -/
def asGallons (m : Volume) : Volume := m.converted 2 true

/-- The volume in liters and smaller measures. -/
def asLiters (m : Volume) : Volume := m.converted 3 true

end Volume

namespace Weight

/-- A number of pounds. -/
def pounds (amount : Rational) : Weight := .single _ 0 0 amount

/-- The weight in pounds and ounces. -/
def asPounds (m : Weight) : Weight := m.converted 0 true

/-- The weight in metric units. -/
def asMetric (m : Weight) : Weight := m.converted 1 true

/-- The weight in carats. -/
def asCarats (m : Weight) : Weight := m.converted 2 true

end Weight

end Tabletop
