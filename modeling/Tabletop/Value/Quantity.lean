import Tabletop.Dice.Text
import Tabletop.Measure.Purse
import Tabletop.Measure.Text

/-!
# Quantities

What summing up a sheet needs from the values it sums: numbers, rationals, dice and measures of any
kind. Operations that a type has no use for keep their plain meaning: only measures of money can
hold money, and only numbers are numbers.
-/

namespace Tabletop

/-- A type of values that can be summed, scaled, compared and priced. -/
class Quantity (α : Type) where
  /-- The name of the value's kind. -/
  kindName : α → String
  /-- Whether two values can be added. -/
  canAdd : α → α → Bool
  add : α → α → Except Failure α
  /-- The value times a factor; a value that cannot hold the result stays as it is. -/
  scale : α → Rational → α
  /-- The order of two values, if they have one. -/
  compare : α → α → Option Ordering
  text : α → String
  /-- Money as a value, if the type can hold it. -/
  ofMoney? : Money → Option α
  /-- The money that a value is. -/
  money? : α → Option Money
  isDefined : α → Bool
  /-- Reads a text as a value of the same kind. -/
  reread : α → String → Option α
  /-- The canonical form after arithmetic. -/
  simplified : α → α
  /-- The plain number that a value is. -/
  number? : α → Option Int

/-- Reads a number, with blanks around it. -/
def parseNumber (source : String) : Except Failure Int :=
  match Numeral.int? (Text.trim source.toList) with
  | some n => .ok n
  | none => .error (.unreadable "number" source)

instance : Quantity Int where
  kindName _ := "number"
  canAdd _ _ := true
  add m n := .ok (clamp (m + n))
  scale n factor := ((Rational.ofInt n).multiply factor).truncated
  compare m n := some (Ord.compare m n)
  text := Numeral.plain
  ofMoney? _ := none
  money? _ := none
  isDefined _ := true
  reread _ source := (parseNumber source).toOption
  simplified := id
  number? := some

instance : Quantity Rational where
  kindName _ := "rational"
  canAdd _ _ := true
  add r s := .ok (r.add s)
  scale := Rational.multiply
  compare r s := some (r.compare s)
  text := Rational.text
  ofMoney? _ := none
  money? _ := none
  isDefined := Rational.isDefined
  reread _ source := (Rational.parse source).toOption
  simplified := id
  number? _ := none

/-- Dice times a factor; only a whole factor that is not negative scales dice. -/
def Dice.scale (d : Dice) (factor : Rational) : Dice :=
  if factor.hasFraction || factor.negative then d else d.multiply factor.truncated

/-- Dice in the order of their averages, then of their highest results. -/
def Dice.compare (d e : Dice) : Ordering :=
  (Ord.compare d.average e.average).then (Ord.compare d.max e.max)

/-- Dice can be added unless both roll and their sides differ. -/
def Dice.canAdd (d e : Dice) : Bool := d.count == 0 || e.count == 0 || d.sides == e.sides

instance : Quantity Dice where
  kindName _ := "dice"
  canAdd := Dice.canAdd
  add := Dice.add
  scale := Dice.scale
  compare d e := some (d.compare e)
  text := Dice.text
  ofMoney? _ := none
  money? _ := none
  isDefined := Dice.isDefined
  reread _ source := (Dice.parse source).toOption
  simplified := id
  number? _ := none

/-- Money as a measure of the kind, if the kind is money. -/
def Measure.ofMoney? : (k : Kind) → Money → Option (Measure k)
  | .standard .money, m => some m
  | _, _ => none

/-- The money that a measure is. -/
def Measure.money? : (k : Kind) → Measure k → Option Money
  | .standard .money, m => some m
  | _, _ => none

instance (k : Kind) : Quantity (Measure k) where
  kindName _ := k.name
  canAdd _ _ := true
  add m n := .ok (m.add n)
  scale := Measure.multiply
  compare m n := some (m.compare n)
  text := Measure.text
  ofMoney? := Measure.ofMoney? k
  money? := Measure.money? k
  isDefined := Measure.isDefined
  reread _ source := (Measure.parse k source).toOption
  simplified := Measure.simplify
  number? _ := none

end Tabletop
