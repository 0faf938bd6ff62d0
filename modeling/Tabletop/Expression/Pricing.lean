import Tabletop.Expression.Basic
import Tabletop.Value.Quantity

/-!
# Pricing

Applying expressions to a value. Costs are added to money, and make up the value where there is
none; other values have no price and pass costs by.

* Enhancements of one sort share a running total, and each costs what it raises the price of the
  total by: the price grows with the square of the total.
* **applyAll** applies expressions in their order, whatever the order they were given in.
-/

namespace Tabletop

/-- The enhancements applied so far. -/
structure Enhancements where
  armor : Int
  weapon : Int
deriving DecidableEq, Repr

/-- No enhancement. -/
def Enhancements.none : Enhancements := ⟨0, 0⟩

namespace Expression

/-- What raising a total from `held` by `plus` costs in gold, at `weight` thousands of gold for the
square of the total. Intermediate results are cut to 128 bits and the price to 64. -/
def enhancementCost (weight held plus : Int) : Int :=
  let mixed := clampWide (2 * weight * held * plus)
  let square := clampWide (clampWide (plus * plus) * weight)
  clamp (clampWide (clampWide (mixed + square) * 1000))

/-- The price of a consumable without its costs; a spell level of zero halves the price, which may
take silver. -/
def itemCost (item : MagicItem) (spellLevel casterLevel : Int) : Money :=
  let price := item.basePrice * casterLevel
  if spellLevel > 0 then Money.gold (clamp (clampWide (price * spellLevel)))
  else if price % 2 = 0 then Money.gold (clamp (price / 2))
  else Money.coins .silver (clamp (price * 5))

/-- The price of a consumable with its material and five gold pieces for each experience point. -/
def fullItemCost (item : MagicItem) (spellLevel casterLevel material xp : Int) : Money :=
  let price := itemCost item spellLevel casterLevel
  let extra := material + 5 * xp
  if extra > 0 then price.add (Money.gold (clamp extra)) else price

variable {α : Type} [Quantity α]

/-- Adds a cost to a value. -/
def addCost (value : Option α) (cost : Money) : Option α :=
  match value with
  | none => Quantity.ofMoney? cost
  | some v =>
    match Quantity.money? v with
    | some money => (Quantity.ofMoney? (money.add cost)).or (some v)
    | none => some v

/-- Applies one expression to a value and the enhancements so far. -/
def apply (e : Expression) (value : Option α) (held : Enhancements) : Option α × Enhancements :=
  match e with
  | .magicArmor plus =>
    (addCost value (Money.gold (enhancementCost 1 held.armor plus)),
      { held with armor := clamp (held.armor + plus) })
  | .magicWeapon plus =>
    (addCost value (Money.gold (enhancementCost 2 held.weapon plus)),
      { held with weapon := clamp (held.weapon + plus) })
  | .magicItem item spellLevel casterLevel material xp =>
    (addCost value (fullItemCost item spellLevel casterLevel material xp), held)
  | .factor multiply divide =>
    match Rational.fraction multiply divide with
    | .ok ratio => (value.map fun v => Quantity.scale v ratio, held)
    | .error _ => (none, held)
  | .equal source => (value.map fun v => (Quantity.reread v source).getD v, held)

/-- Applies expressions one after the other. -/
def applyEach (es : List Expression) (value : Option α) (held : Enhancements) :
    Option α × Enhancements :=
  es.foldl (fun (value, held) e => e.apply value held) (value, held)

/-- Applies all expressions in their order. -/
def applyAll (es : List Expression) (value : Option α) : Option α :=
  (applyEach (sorted es) value .none).1

end Expression

end Tabletop
