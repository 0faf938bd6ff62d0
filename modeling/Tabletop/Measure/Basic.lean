import Tabletop.Measure.Standard

/-!
# Measures

An amount spread over the units of one set, with an optional amount in the slot of each unit. An
empty slot means that nothing was given, which is not the same as zero.

* **asBase** totals a measure in the base unit of its set, **normalized** on the family's scale;
* **converted** and **simplify** spread a total over a set anew;
* **add** and **subtract** work slot by slot, after the other measure was converted to the set of
  this one;
* **compare** orders measures by what they amount to, whatever their sets.
-/

namespace Tabletop

/-- An amount of a kind; without a set it is undefined. `level` bounds the denominators that
simplification keeps. -/
structure Measure (k : Kind) where
  set : Option Nat
  slots : Slots
  level : Int
deriving DecidableEq, Repr

namespace Measure

variable {k : Kind}

/-- A measure never given. -/
def undefined : Measure k := ⟨none, [], k.level⟩

instance : Inhabited (Measure k) := ⟨undefined⟩

/-- Amounts for the units of the set at `index`, largest unit first. -/
def ofSlots (k : Kind) (index : Nat) (slots : Slots) : Except Failure (Measure k) :=
  match k.family.sets[index]? with
  | none => .error (.unknownSet index k.family.sets.length)
  | some set =>
    if slots.length ≠ set.units.length then
      .error (.slotMismatch k.name set.name slots.length set.units.length)
    else .ok ⟨some index, slots, k.level⟩

/-- Amounts for the units of the set called `name`; an unknown name counts as a set past the last
one. -/
def inSet (k : Kind) (name : String) (slots : Slots) : Except Failure (Measure k) :=
  match k.family.indexOf name with
  | none => .error (.unknownSet k.family.sets.length k.family.sets.length)
  | some index => ofSlots k index slots

/-- The measure with another level, which is at least one. -/
def withLevel (m : Measure k) (level : Int) : Measure k := { m with level := max level 1 }

/-- Whether anything was given. -/
def isDefined (m : Measure k) : Bool := m.set.isSome

/-- The set in use. -/
def activeSet (m : Measure k) : Option UnitSet := m.set.bind fun index => k.family.sets[index]?

/-- The amount in the slot of a unit. -/
def get (m : Measure k) (unit : Nat) : Option Rational := m.slots[unit]?.join

/-- The plural of the base unit of the set in use. -/
def baseUnit (m : Measure k) : String := (m.activeSet.map UnitSet.basePlural).getD undefinedText

/-- The total in base units of the set in use. -/
def asBase (m : Measure k) : Rational :=
  match m.activeSet with
  | some set => set.asBase m.slots
  | none => .undefined

/-- The total on the family's scale. -/
def normalized (m : Measure k) : Rational :=
  match m.activeSet with
  | some set => (set.asBase m.slots).scaleBy set.divisor set.multiplier
  | none => .undefined

/-- The total in base units of the set at `index`. -/
def valueIn (m : Measure k) (index : Nat) : Rational :=
  match k.family.sets[index]? with
  | some set => m.normalized.scaleBy set.multiplier set.divisor
  | none => .undefined

/-- The measure in the set at `index`, spread over its units or all in its base unit. What is
undefined or in that set already stays as it is. -/
def converted (m : Measure k) (index : Nat) (simplify : Bool) : Measure k :=
  match k.family.sets[index]? with
  | none => m
  | some set =>
    if !m.isDefined || m.set = some index then m
    else { m with set := some index, slots := set.convert m.normalized m.level simplify }

/-- The measure in the set at `index`, which must exist. -/
def toSet (m : Measure k) (index : Nat) (simplify : Bool) : Except Failure (Measure k) :=
  if index < k.family.sets.length then .ok (m.converted index simplify)
  else .error (.unknownSet index k.family.sets.length)

/-- The total spread anew over the units of the set in use. -/
def simplify (m : Measure k) : Measure k :=
  match m.activeSet with
  | some set => { m with slots := set.distribute (set.asBase m.slots) m.level }
  | none => m

/-- The measure with a function applied to all amounts given. -/
def mapSlots (f : Rational → Rational) (m : Measure k) : Measure k :=
  { m with slots := m.slots.map (Option.map f) }

/-- The sum of two slots. -/
def addSlot : Option Rational → Option Rational → Option Rational
  | some a, some b => some (a.add b)
  | none, b => b
  | a, none => a

/-- The sum, in the set and with the level of the first measure if that is defined. -/
def add (m n : Measure k) : Measure k :=
  match m.set with
  | none => n
  | some index =>
    if n.isDefined then { m with slots := List.zipWith addSlot m.slots (n.converted index true).slots }
    else m

/-- The difference; nothing given less an amount is that amount negated. -/
def subtract (m n : Measure k) : Measure k :=
  match m.set with
  | none => n.mapSlots Rational.negate
  | some index =>
    if n.isDefined then
      { m with
        slots := List.zipWith addSlot m.slots
          ((n.converted index true).mapSlots Rational.negate).slots }
    else m

/-- The measure times a factor, simplified. -/
def multiply (m : Measure k) (factor : Rational) : Measure k :=
  (m.mapSlots (·.multiply factor)).simplify

/-- The measure times an integer, simplified. -/
def multiplyInt (m : Measure k) (factor : Int) : Measure k :=
  (m.mapSlots (·.multiplyInt factor)).simplify

/-- The measure divided by a rational other than zero, simplified. -/
def divide (m : Measure k) (divisor : Rational) : Except Failure (Measure k) :=
  match Rational.one.divide divisor with
  | .ok inverse => .ok (m.multiply inverse)
  | .error e => .error e

/-- The measure divided by an integer other than zero, simplified. -/
def divideInt (m : Measure k) (divisor : Int) : Except Failure (Measure k) :=
  m.divide (.ofInt divisor)

/-- The order of the total amounts. -/
def compare (m n : Measure k) : Ordering := m.normalized.compare n.normalized

end Measure

end Tabletop
