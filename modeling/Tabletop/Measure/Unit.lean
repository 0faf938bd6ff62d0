import Tabletop.Rational.Text

/-!
# Units of measure

A unit has a name, a plural, other spellings, and its ratio to the base unit of its set.

* **asBase** and **fromBase** convert an amount of the unit to the base unit and back;
* **format** counts in the singular or the plural, **formatShort** uses the shortest spelling.
-/

namespace Tabletop

/-- A named unit, `multiplier / divisor` base units large. -/
structure MeasureUnit where
  name : String
  plural : String
  multiplier : Int
  divisor : Int
  aliases : List String
deriving DecidableEq, Repr

/-- A ratio as `multiplier/divisor`. -/
def ratioText (multiplier divisor : Int) : String :=
  Numeral.plain multiplier ++ "/" ++ Numeral.plain divisor

namespace MeasureUnit

/-- A checked unit: both numbers of its ratio are positive. -/
def make (name plural : String) (multiplier divisor : Int) (aliases : List String) :
    Except DefinitionFailure MeasureUnit :=
  if multiplier ≤ 0 ∨ divisor ≤ 0 then .error (.invalidFactor (ratioText multiplier divisor))
  else .ok ⟨name, plural, multiplier, divisor, aliases⟩

/-- The base unit of a set has the ratio one to one. -/
def isBase (u : MeasureUnit) : Bool := u.multiplier == 1 && u.divisor == 1

/-- Every spelling of the unit. -/
def names (u : MeasureUnit) : List String := u.name :: u.plural :: u.aliases

/-- The spellings that no other unit of the set may have: the plural counts only if it differs from
the name. -/
def spellings (u : MeasureUnit) : List String :=
  u.name :: ((if u.plural = u.name then [] else [u.plural]) ++ u.aliases)

/-- Whether two units measure alike: name and ratio count, other spellings do not. -/
def same (u v : MeasureUnit) : Bool :=
  u.name == v.name && u.multiplier == v.multiplier && u.divisor == v.divisor

/-- An amount of the unit in base units. -/
def asBase (u : MeasureUnit) (amount : Rational) : Rational := amount.scaleBy u.multiplier u.divisor

/-- An amount of base units in this unit. -/
def fromBase (u : MeasureUnit) (amount : Rational) : Rational :=
  amount.scaleBy u.divisor u.multiplier

/-- An amount with the unit in singular or plural; zero takes the singular. -/
def format (u : MeasureUnit) (amount : Rational) : String :=
  if amount.isNull then "0 " ++ u.name
  else if amount.isSingular then amount.text ++ " " ++ u.name
  else amount.text ++ " " ++ u.plural

/-- The spelling with the fewest bytes; of several the first. -/
def shortest (u : MeasureUnit) : String :=
  (u.plural :: u.aliases).foldl
    (fun best name => if name.utf8ByteSize < best.utf8ByteSize then name else best) u.name

/-- An amount with the shortest spelling of the unit. -/
def formatShort (u : MeasureUnit) (amount : Rational) : String := amount.text ++ " " ++ u.shortest

/-- The unit with all its spellings and its ratio. -/
def text (u : MeasureUnit) : String :=
  String.intercalate "/" u.names ++ " *" ++ ratioText u.multiplier u.divisor

end MeasureUnit

end Tabletop
