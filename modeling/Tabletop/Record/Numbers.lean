import Tabletop.Dice.Basic
import Tabletop.Rational.Basic
import Tabletop.Record.Basic

/-!
# Records of rationals and dice

A rational's record has its whole part and its fraction; the sign is with the whole part or, if that
is zero, with the numerator. A record of zeros stands for the undefined value.
-/

namespace Tabletop.Record

/-- The whole part, numerator and denominator in a record. -/
def mixedParts? (j : Json) : Option (Int × Int × Int) := do
  let f ← j.fields? ["leader", "nominator", "denominator"]
  let whole ← f.withDefault "leader" 0 Json.int?
  let num ← f.withDefault "nominator" 0 Json.int?
  let den ← f.required "denominator" Json.int?
  some (whole, num, den)

/-- The rational with the given parts. -/
def rationalOf : Int × Int × Int → Except Failure Rational
  | (0, 0, 0) => .ok .undefined
  | (whole, num, den) => Rational.mixed whole num den

/-- The record of a rational. -/
def ofRational (r : Rational) : Json :=
  let sign : Int := if r.negative then -1 else 1
  let (whole, num) : Int × Int :=
    if r.whole = 0 then (r.whole, sign * r.num) else (sign * r.whole, r.num)
  .record [("leader", .int whole), ("nominator", .int num), ("denominator", .int r.den)]

instance : Recorded Rational where
  encode := ofRational
  decode j := do rationalOf (← shaped (mixedParts? j))

/-- The count, sides and modifier in a record. -/
def diceParts? (j : Json) : Option (Int × Int × Int) := do
  let f ← j.fields? ["count", "sides", "modifier"]
  let count ← f.withDefault "count" 0 Json.int?
  let sides ← f.required "sides" Json.int?
  let modifier ← f.withDefault "modifier" 0 Json.int?
  some (count, sides, modifier)

/-- The dice with the given parts. -/
def diceOf : Int × Int × Int → Except Failure Dice
  | (0, 0, 0) => .ok .undefined
  | (count, sides, modifier) => Dice.make count sides modifier

instance : Recorded Dice where
  encode d := .record [("count", .int d.count), ("sides", .int d.sides), ("modifier", .int d.modifier)]
  decode j := do diceOf (← shaped (diceParts? j))

end Tabletop.Record
