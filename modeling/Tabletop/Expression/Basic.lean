import Tabletop.Failure

/-!
# Expressions

What adjusts a price: magic enhancements, consumable magic items, factors, and a text that replaces
the value. Expressions apply in the order of their priority and, within one priority, of their
texts; the text leaves out arguments that have their default.
-/

namespace Tabletop

/-- Consumable magic items. -/
inductive MagicItem where
  | wand
  | potion
  | scroll
deriving DecidableEq, Repr

namespace MagicItem

/-- All items. -/
def all : List MagicItem := [.wand, .potion, .scroll]

/-- The name of an item. -/
def name : MagicItem → String
  | .wand => "wand"
  | .potion => "potion"
  | .scroll => "scroll"

/-- Gold pieces for each spell level and caster level. -/
def basePrice : MagicItem → Int
  | .wand => 15
  | .potion => 50
  | .scroll => 25

/-- The item with a name. -/
def ofName? (name : String) : Option MagicItem := all.find? fun item => item.name == name

/-- The lowest caster level that can make an item of a spell level. -/
def minimumCasterLevel (spellLevel : Int) : Int :=
  if spellLevel > 1 then clamp (spellLevel * 2) - 1 else 1

end MagicItem

/-- An adjustment of a value. -/
inductive Expression where
  | magicArmor (plus : Int)
  | magicWeapon (plus : Int)
  /-- A consumable, with its material in gold pieces and its experience points. -/
  | magicItem (item : MagicItem) (spellLevel casterLevel material xp : Int)
  | factor (multiply divide : Int)
  /-- A text that replaces the value. -/
  | equal (source : String)
deriving DecidableEq, Repr

namespace Expression

/-- A magic item; without a caster level it has the lowest one. -/
def makeItem (item : MagicItem) (spellLevel : Int) (casterLevel : Option Int) :
    Except Failure Expression :=
  let minimum := MagicItem.minimumCasterLevel spellLevel
  let level := casterLevel.getD minimum
  if level < minimum then .error (.casterLevelTooLow spellLevel level minimum)
  else .ok (.magicItem item spellLevel level 0 0)

/-- The expression with costs, which only magic items have. -/
def withCosts (e : Expression) (material xp : Int) : Except Failure Expression :=
  if material < 0 then .error (.notPositive "material" material)
  else if xp < 0 then .error (.notPositive "xp" xp)
  else
    match e with
    | .magicItem item spellLevel casterLevel _ _ =>
      .ok (.magicItem item spellLevel casterLevel material xp)
    | e => .ok e

/-- A factor, whose divisor is not zero. -/
def makeFactor (multiply divide : Int) : Except Failure Expression :=
  if divide = 0 then .error .divisionByZero else .ok (.factor multiply divide)

/-- The place in the order of application. -/
def priority : Expression → Nat
  | .magicArmor _ | .magicWeapon _ | .magicItem .. => 1
  | .factor .. => 2
  | .equal _ => 10

/-- A head with arguments in parentheses, all in brackets. -/
def callText (head : String) (arguments : List Int) : String :=
  "[" ++ head ++ "(" ++ String.intercalate ", " (arguments.map Numeral.plain) ++ ")]"

/-- An expression in text. -/
def text : Expression → String
  | .magicArmor plus => callText "magic armor" [plus]
  | .magicWeapon plus => callText "magic weapon" [plus]
  | .magicItem item spellLevel casterLevel material xp =>
    callText item.name
      (if xp ≠ 0 then [spellLevel, casterLevel, material, xp]
      else if material ≠ 0 then [spellLevel, casterLevel, material]
      else if casterLevel = MagicItem.minimumCasterLevel spellLevel then [spellLevel]
      else [spellLevel, casterLevel])
  | .factor multiply divide =>
    if divide = 1 then "[* " ++ Numeral.plain multiply ++ "]"
    else "[* " ++ Numeral.plain multiply ++ "/" ++ Numeral.plain divide ++ "]"
  | .equal source => "[= " ++ source ++ "]"

/-- The order of application: by priority, then by text. -/
def compare (a b : Expression) : Ordering :=
  (Ord.compare a.priority b.priority).then (Ord.compare a.text b.text)

/-- Whether `a` may apply before `b`. -/
def atMost (a b : Expression) : Bool := a.compare b ≠ .gt

/-- Expressions in the order of application. -/
def sorted (es : List Expression) : List Expression := es.mergeSort atMost

end Expression

end Tabletop
