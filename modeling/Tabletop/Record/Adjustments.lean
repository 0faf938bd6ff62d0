import Tabletop.Expression.Basic
import Tabletop.Modifier.Basic
import Tabletop.Record.Basic

/-!
# Records of modifiers and expressions

A modifier's record has its first bonus and, nested in it, the record of the chain behind; so a chain
may have as many bonuses as records may nest.

An expression's record is read as a whole first, and the form named in it then tells its fields. As
an array it begins with the name of the form.
-/

namespace Tabletop.Record

/-- The bonuses in nested records, of which `room` may be nested. -/
def bonuses? : Nat → Json → Option (List Bonus)
  | 0, _ => none
  | room + 1, j => do
    let f ← j.fields? ["value", "type", "condition", "next"]
    let value ← f.required "value" Json.int?
    let kind ← f.withDefault "type" .general (Json.keyword? BonusType.ofKey? (some room))
    let condition ← f.withDefault "condition" none (Json.nullable Json.text?)
    let others ← f.withDefault "next" none (Json.nullable (bonuses? room))
    some (⟨value, kind, condition⟩ :: others.getD [])

/-- The record of a bonus with that of the chain behind it. -/
def ofBonus (b : Bonus) (next : Option Json) : Json :=
  .record
    ([("value", .int b.value), ("type", .text b.kind.key)]
      ++ (b.condition.map fun condition => ("condition", Json.text condition)).toList
      ++ (next.map fun chain => ("next", chain)).toList)

/-- The record of a row of bonuses. -/
def ofBonuses : List Bonus → Option Json
  | [] => none
  | b :: bs => some (ofBonus b (ofBonuses bs))

instance : Recorded Modifier where
  encode m := ofBonus m.first (ofBonuses m.others)
  decode j := do
    match Modifier.ofLinks? (← shaped (bonuses? Json.maxDepth j)) with
    | some m => .ok m
    | none => .error .malformedRecord

/-- The form that a record names and the rest of the record. -/
def tagged? (tag : String) : Json → Option (String × Json)
  | .array (.string (some form) :: items) => some (form, .array items)
  | .object members => do
    let f ← Json.fields? [tag] (.object members)
    let form ← f.required tag Json.text?
    some (form, .object (members.filter fun (name, _) => name ≠ some tag))
  | _ => none

/-- The contents of an expression's record. -/
inductive ExpressionParts where
  | magicArmor (plus : Int)
  | magicWeapon (plus : Int)
  | magicItem (item : MagicItem) (spellLevel : Int) (casterLevel : Option Int) (material xp : Int)
  | factor (multiply divide : Int)
  | equal (source : String)

/-- The fields of the form `form`. -/
def formParts? (form : String) (j : Json) : Option ExpressionParts :=
  if form = "magic_armor" then do
    let f ← j.fields? ["plus"]
    some (.magicArmor (← f.required "plus" Json.int?))
  else if form = "magic_weapon" then do
    let f ← j.fields? ["plus"]
    some (.magicWeapon (← f.required "plus" Json.int?))
  else if form = "magic_item" then do
    let f ← j.fields? ["item", "spell_level", "caster_level", "material", "xp"]
    let item ← f.required "item" (Json.keyword? MagicItem.ofName? none)
    let spellLevel ← f.required "spell_level" Json.int?
    let casterLevel ← f.withDefault "caster_level" none (Json.nullable Json.int?)
    let material ← f.withDefault "material" 0 Json.int?
    let xp ← f.withDefault "xp" 0 Json.int?
    some (.magicItem item spellLevel casterLevel material xp)
  else if form = "factor" then do
    let f ← j.fields? ["multiply", "divide"]
    let multiply ← f.required "multiply" Json.int?
    let divide ← f.withDefault "divide" 1 Json.int?
    some (.factor multiply divide)
  else if form = "equal" then do
    let f ← j.fields? ["text"]
    some (.equal (← f.required "text" Json.text?))
  else none

/-- The contents of an expression's record. -/
def expressionParts? (j : Json) : Option ExpressionParts := do
  if j.depth ≤ Json.maxDepth ∧ j.isSound then
    let (form, rest) ← tagged? "expression" j
    formParts? form rest
  else none

/-- The expression with the given contents. -/
def expressionOf : ExpressionParts → Except Failure Expression
  | .magicArmor plus => .ok (.magicArmor plus)
  | .magicWeapon plus => .ok (.magicWeapon plus)
  | .magicItem item spellLevel casterLevel material xp => do
    (← Expression.makeItem item spellLevel casterLevel).withCosts material xp
  | .factor multiply divide => Expression.makeFactor multiply divide
  | .equal source => .ok (.equal source)

/-- A field that is left out if it is zero. -/
def unlessZero (name : String) (n : Int) : List (String × Json) :=
  if n = 0 then [] else [(name, .int n)]

/-- The record of an expression. -/
def ofExpression : Expression → Json
  | .magicArmor plus => .record [("expression", .text "magic_armor"), ("plus", .int plus)]
  | .magicWeapon plus => .record [("expression", .text "magic_weapon"), ("plus", .int plus)]
  | .magicItem item spellLevel casterLevel material xp =>
    .record
      ([("expression", .text "magic_item"), ("item", .text item.name),
        ("spell_level", .int spellLevel), ("caster_level", .int casterLevel)]
        ++ unlessZero "material" material ++ unlessZero "xp" xp)
  | .factor multiply divide =>
    .record [("expression", .text "factor"), ("multiply", .int multiply), ("divide", .int divide)]
  | .equal source => .record [("expression", .text "equal"), ("text", .text source)]

instance : Recorded Expression where
  encode := ofExpression
  decode j := do expressionOf (← shaped (expressionParts? j))

end Tabletop.Record
