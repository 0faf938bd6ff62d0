import Tabletop.Value.Quantity

/-!
# Values

A value of any kind: a number, a rational, dice, or a measure of one of the standard dimensions.
Values of one kind are added, compared and scaled as that kind is; values of different kinds cannot
be added and have no order.
-/

namespace Tabletop

/-- The kinds of values. -/
inductive ValueKind where
  | number
  | rational
  | dice
  | measure (dimension : Dimension)
deriving DecidableEq, Repr

namespace ValueKind

/-- All kinds. -/
def all : List ValueKind := .number :: .rational :: .dice :: Dimension.all.map .measure

/-- The name of a kind. -/
def name : ValueKind → String
  | .number => "number"
  | .rational => "rational"
  | .dice => "dice"
  | .measure d => d.name

/-- The kind with a name. -/
def ofName? (name : String) : Option ValueKind := all.find? fun kind => kind.name == name

end ValueKind

/-- A value of any kind. -/
inductive Value where
  | number (n : Int)
  | rational (r : Rational)
  | dice (d : Dice)
  | measure (dimension : Dimension) (m : Measure (.standard dimension))
deriving DecidableEq, Repr

namespace Value

/-- The kind of a value. -/
def kind : Value → ValueKind
  | .number _ => .number
  | .rational _ => .rational
  | .dice _ => .dice
  | .measure d _ => .measure d

/-- Reads a whole text as a value of a kind. -/
def parse (kind : ValueKind) (source : String) : Except Failure Value :=
  match kind with
  | .number => (parseNumber source).map .number
  | .rational => (Rational.parse source).map .rational
  | .dice => (Dice.parse source).map .dice
  | .measure d => (Measure.parse (.standard d) source).map (.measure d)

/-- Whether a value was set. -/
def isDefined : Value → Bool
  | .number _ => true
  | .rational r => r.isDefined
  | .dice d => d.isDefined
  | .measure _ m => m.isDefined

/-- A value in text. -/
def text : Value → String
  | .number n => Numeral.plain n
  | .rational r => r.text
  | .dice d => d.text
  | .measure _ m => m.text

/-- Whether two values can be added. -/
def canAdd : Value → Value → Bool
  | .number _, .number _ => true
  | .rational _, .rational _ => true
  | .dice d, .dice e => d.canAdd e
  | .measure d _, .measure e _ => d == e
  | _, _ => false

/-- The sum of two values of one kind. -/
def add : Value → Value → Except Failure Value
  | .number m, .number n => (Quantity.add m n).map .number
  | .rational r, .rational s => .ok (.rational (r.add s))
  | .dice d, .dice e => (d.add e).map .dice
  | .measure d m, .measure e n =>
    if h : e = d then .ok (.measure d (m.add (h ▸ n)))
    else .error (.incompatibleKinds d.name e.name)
  | v, w => .error (.incompatibleKinds v.kind.name w.kind.name)

/-- A value times a factor. -/
def scale : Value → Rational → Value
  | .number n, factor => .number (Quantity.scale n factor)
  | .rational r, factor => .rational (r.multiply factor)
  | .dice d, factor => .dice (d.scale factor)
  | .measure d m, factor => .measure d (m.multiply factor)

/-- The order of two values of one kind. -/
def compare : Value → Value → Option Ordering
  | .number m, .number n => some (Ord.compare m n)
  | .rational r, .rational s => some (r.compare s)
  | .dice d, .dice e => some (d.compare e)
  | .measure d m, .measure e n => if h : e = d then some (m.compare (h ▸ n)) else none
  | _, _ => none

/-- The money that a value is. -/
def money? : Value → Option Money
  | .measure .money m => some m
  | _ => none

/-- The plain number that a value is. -/
def number? : Value → Option Int
  | .number n => some n
  | _ => none

/-- A measure spread over the units of its set anew; other values stay as they are. -/
def simplified : Value → Value
  | .measure d m => .measure d m.simplify
  | v => v

instance : Quantity Value where
  kindName v := v.kind.name
  canAdd := canAdd
  add := add
  scale := scale
  compare := compare
  text := text
  ofMoney? m := some (.measure .money m)
  money? := money?
  isDefined := isDefined
  reread v source := (parse v.kind source).toOption
  simplified := simplified
  number? := number?

end Value

end Tabletop
