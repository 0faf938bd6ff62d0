import Tabletop.Measure.Unit

/-!
# Sets and families of units

A set groups units that share a base unit, largest unit first. A family consists of sets; each
set's own ratio tells how its base unit relates to the scale common to the family, which makes
amounts convertible between sets.

* **UnitSet.make** admits a set only with exactly one base unit and no spelling used twice;
* **UnitSet.asBase** totals the amounts given for the units of a set;
* **UnitSet.distribute** spreads a total over the units, largest first: a unit keeps all that is left
  if the fraction is simple enough or no smaller unit follows, and only the whole part otherwise.
-/

namespace Tabletop

/-- An optional amount for each unit of a set. -/
abbrev Slots := List (Option Rational)

/-- A named group of units with one base unit. -/
structure UnitSet where
  name : String
  multiplier : Int
  divisor : Int
  units : List MeasureUnit
deriving DecidableEq, Repr

namespace UnitSet

/-- The first spelling that occurs a second time, after those `seen`. -/
def repeated? (seen : List String) : List String → Option String
  | [] => none
  | name :: rest => if name ∈ seen then some name else repeated? (name :: seen) rest

/-- A checked set. -/
def make (name : String) (multiplier divisor : Int) (units : List MeasureUnit) :
    Except DefinitionFailure UnitSet :=
  if multiplier ≤ 0 ∨ divisor ≤ 0 then .error (.invalidFactor (ratioText multiplier divisor))
  else if units = [] then .error (.emptySet name)
  else if units.countP MeasureUnit.isBase ≠ 1 then
    .error (.baseUnits name (units.countP MeasureUnit.isBase))
  else
    match repeated? [] (units.flatMap MeasureUnit.spellings) with
    | some spelling => .error (.duplicateName name spelling)
    | none => .ok ⟨name, multiplier, divisor, units⟩

/-- The place of the base unit. -/
def baseIndex (s : UnitSet) : Nat := s.units.findIdx MeasureUnit.isBase

/-- The plural of the base unit. -/
def basePlural (s : UnitSet) : String := ((s.units.find? MeasureUnit.isBase).map (·.plural)).getD ""

/-- The place of the unit spelled `name`. -/
def findUnit (s : UnitSet) (name : String) : Option Nat :=
  s.units.findIdx? fun u => u.names.contains name

/-- The total of some amounts in base units; empty slots count for nothing. -/
def asBase (s : UnitSet) (slots : Slots) : Rational :=
  ((s.units.zip slots).filterMap fun (u, slot) => slot.map u.asBase).foldl Rational.add .zero

/-- The denominators that a unit keeps are below this: the level, or the step to the next smaller
unit where that is a finer fraction. -/
def threshold (level : Int) (unit next : MeasureUnit) : Int :=
  if next.divisor > 1 then min level (next.divisor.tdiv unit.divisor) else level

/-- Spreads an amount of base units over units, largest first. -/
def spread (level : Int) : List MeasureUnit → Rational → Slots
  | [], _ => []
  | [unit], total => [some (unit.fromBase total)]
  | unit :: next :: rest, total =>
    let amount := unit.fromBase total
    if (amount.den : Int) < threshold level unit next then
      some amount :: none :: rest.map fun _ => none
    else if amount.whole > 0 then
      let whole := Rational.ofInt amount.truncated
      some whole :: spread level (next :: rest) (unit.asBase (amount.subtract whole))
    else none :: spread level (next :: rest) (unit.asBase amount)

/-- An amount of base units spread over the set. -/
def distribute (s : UnitSet) (total : Rational) (level : Int) : Slots := spread level s.units total

/-- An amount on the family's scale in this set, either spread or all in base units. -/
def convert (s : UnitSet) (normalized : Rational) (level : Int) (simplify : Bool) : Slots :=
  let total := normalized.scaleBy s.multiplier s.divisor
  if simplify then s.distribute total level
  else (s.units.map fun _ => none).set s.baseIndex (some total)

/-- The set with its ratio and its units. -/
def text (s : UnitSet) : String :=
  s.name ++ " (" ++ ratioText s.multiplier s.divisor ++ "):"
    ++ String.join (s.units.map fun u => " " ++ u.text ++ ";")

end UnitSet

/-- All sets of one kind of measurement; a family without sets reads and converts nothing. -/
structure Family where
  sets : List UnitSet
deriving DecidableEq, Repr

namespace Family

/-- A checked family: it has a set. -/
def make (sets : List UnitSet) : Except DefinitionFailure Family :=
  if sets = [] then .error .noSets else .ok ⟨sets⟩

/-- Whether two names agree when ASCII capitals count as small letters. -/
def sameName (a b : String) : Bool := a.toList.map Char.toLower == b.toList.map Char.toLower

/-- The place of the set called `name`. -/
def indexOf (f : Family) (name : String) : Option Nat :=
  f.sets.findIdx? fun s => sameName s.name name

end Family

end Tabletop
