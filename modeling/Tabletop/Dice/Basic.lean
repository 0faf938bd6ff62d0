import Tabletop.Failure

/-!
# Dice

`count` dice of `sides` sides and a fixed modifier. A fixed number is no dice of one side; the
undefined value has no sides.

* **outcome** is the result for given faces: they are added to the modifier, each sum clamped, and
  the result is at least one;
* **min**, **max** and **average** are computed in closed form and likewise at least one;
* **add** joins dice of one size and keeps the highest possible sum at one or above.
-/

namespace Tabletop

/-- Dice with a modifier. -/
structure Dice where
  count : Nat
  sides : Nat
  modifier : Int
deriving DecidableEq, Repr

namespace Dice

/-- The most dice rolled at once. -/
def maxCount : Nat := 10000

/-- The most sides of a die. -/
def maxSides : Nat := 1000000

/-- Dice never set. -/
def undefined : Dice := ⟨0, 0, 0⟩

instance : Inhabited Dice := ⟨undefined⟩

/-- Checked dice: a count of at least zero, sides of at least one, both within their limits. -/
def make (count sides modifier : Int) : Except Failure Dice :=
  if count < 0 then .error (.notPositive "count" count)
  else if sides ≤ 0 then .error (.notPositive "sides" sides)
  else if count > maxCount then .error (.tooLarge "count" maxCount count)
  else if sides > maxSides then .error (.tooLarge "sides" maxSides sides)
  else .ok ⟨count.toNat, sides.toNat, modifier⟩

/-- A fixed value without any dice. -/
def fixed (value : Int) : Dice := ⟨0, 1, value⟩

/-- Whether the dice were set. -/
def isDefined (d : Dice) : Bool := d.sides > 0 || d.count > 0

/-- Whether a roll can come out in more than one way. -/
def isRandom (d : Dice) : Bool := d.isDefined && d.sides ≠ 0 && d.sides ≠ 1 && d.count ≠ 0

/-- The highest sum of the dice alone. -/
def diceMax (d : Dice) : Int := d.count * d.sides

/-- The lowest result. -/
def min (d : Dice) : Int := Max.max (clamp (d.count + d.modifier)) 1

/-- The highest result. -/
def max (d : Dice) : Int := Max.max (clamp (d.diceMax + d.modifier)) 1

/-- The average result, cut to a whole number before the modifier is added. -/
def average (d : Dice) : Int := Max.max (clamp (d.count * (d.sides + 1) / 2 + d.modifier)) 1

/-- The result for the faces that came up; undefined dice give zero. -/
def outcome (d : Dice) (faces : List Int) : Int :=
  if d.isDefined then Max.max (faces.foldl (fun total face => clamp (total + face)) d.modifier) 1
  else 0

/-- How many dice a roll draws. -/
def drawn (d : Dice) : Nat := if d.sides > 0 then Min.min d.count maxCount else 0

/-- Two dice join when at most one rolls or both have as many sides. -/
def add (d e : Dice) : Except Failure Dice :=
  if !d.isDefined then .ok e
  else if !e.isDefined then .ok d
  else if d.count > 0 ∧ e.count > 0 ∧ d.sides ≠ e.sides then
    .error (.incompatibleDice d.sides e.sides)
  else
    let count := Min.min (d.count + e.count) maxCount
    let sides := if d.count > 0 then d.sides else e.sides
    let highest : Int := count * sides
    let modifier := d.modifier + e.modifier
    .ok ⟨count, sides, clamp (if -modifier > highest then 1 - highest else modifier)⟩

/-- The dice with count and modifier times `factor`; a negative factor leaves them as they are. -/
def multiply (d : Dice) (factor : Int) : Dice :=
  if !d.isDefined ∨ factor < 0 then d
  else ⟨Min.min (d.count * factor.toNat) maxCount, d.sides, clamp (d.modifier * factor)⟩

end Dice

end Tabletop
