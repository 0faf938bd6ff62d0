import Tabletop.Decimal.Shortest
import Tabletop.Expression.Pricing
import Tabletop.Expression.Text
import Tabletop.Settings

/-!
# The calculator

A calculation reads one input in a mode and tells what it amounts to: the value and a list of details
under labels, and for dice the results of rolling them.

* **evaluate** calculates in any mode;
* **Request.arrange** brings a measure into the units asked for: into the set named, or else spread
  over the units of its own set if that is wanted.
-/

namespace Tabletop.Calculator

/-- How an input is read. -/
inductive Mode where
  | rational
  | dice
  | measure (dimension : Dimension)
  | expression
  | comment
deriving DecidableEq, Repr

namespace Mode

/-- All modes. -/
def all : List Mode :=
  .rational :: .dice :: Dimension.all.map .measure ++ [.expression, .comment]

/-- The name of a mode. -/
def name : Mode → String
  | .rational => "rational"
  | .dice => "dice"
  | .measure d => d.name
  | .expression => "expression"
  | .comment => "comment"

/-- The mode with a name. -/
def ofName? (name : String) : Option Mode := all.find? fun mode => mode.name == name

end Mode

/-- An input with the wishes that some of the modes heed. -/
structure Request where
  input : String
  /-- The name of the set to convert measures to. -/
  target : Option String
  /-- Whether measures are spread over the units of their set. -/
  simplify : Bool
  /-- How often dice are rolled. -/
  rolls : Nat
  seed : Option Nat
  /-- The price that an expression applies to. -/
  base : Option String
deriving DecidableEq, Repr

/-- A labelled fact about a value. -/
structure Detail where
  label : String
  value : String
deriving DecidableEq, Repr

/-- What an input amounts to. -/
structure Calculation where
  mode : Mode
  input : String
  value : String
  details : List Detail
  rolls : List Int
deriving DecidableEq, Repr

/-- Why a calculation fails. -/
inductive Fault where
  | unreadable (mode : Mode) (input : String) (cause : Failure)
  | unreadableBase (base : String) (cause : Failure)
  | unknownUnits (dimension : Dimension) (name : String)
deriving DecidableEq, Repr

namespace Fault

/-- What a mode reads, in the wording of faults. -/
def subject : Mode → String
  | .rational => "a rational"
  | .dice => "dice"
  | .measure d => d.name
  | .expression => "an expression"
  | .comment => "a comment"

/-- The wording of a fault. -/
def message : Fault → String
  | .unreadable mode input _ => "reading " ++ subject mode ++ " from '" ++ input ++ "'"
  | .unreadableBase base _ => "reading a base price from '" ++ base ++ "'"
  | .unknownUnits d name =>
    "unknown " ++ d.name ++ " units '" ++ name ++ "' (known: "
      ++ String.intercalate ", " ((Kind.standard d).family.sets.map (·.name)) ++ ")"

/-- The failure behind a fault. -/
def cause? : Fault → Option Failure
  | .unreadable _ _ cause => some cause
  | .unreadableBase _ cause => some cause
  | .unknownUnits .. => none

end Fault

/-- The word for a result or a set that there is not. -/
def missing : String := "undefined"

namespace Request

/-- A calculation without rolls. -/
def calculation (r : Request) (mode : Mode) (value : String) (details : List Detail) : Calculation :=
  ⟨mode, r.input, value, details, []⟩

/-- The value read, or that the input is unreadable. -/
def reading {α : Type} (r : Request) (mode : Mode) : Except Failure α → Except Fault α
  | .ok a => .ok a
  | .error cause => .error (.unreadable mode r.input cause)

/-- Calculates with a rational. -/
def rational (r : Request) : Except Fault Calculation := do
  let value ← r.reading .rational (Rational.parse r.input)
  return r.calculation .rational value.text
    [⟨"decimal", Decimal.shortestText value.toFloat⟩, ⟨"markup", value.markup⟩]

/-- Calculates with dice. Rolls use the seed of the request, else that of the settings, else
`entropy`. -/
def dice (r : Request) (settings : Settings) (entropy : Nat) : Except Fault Calculation := do
  let dice ← r.reading .dice (Dice.parse r.input)
  let calculation := r.calculation .dice dice.text
    [⟨"min", Numeral.plain dice.min⟩, ⟨"max", Numeral.plain dice.max⟩,
     ⟨"average", Numeral.plain dice.average⟩]
  if r.rolls = 0 then return calculation
  else
    let seed := (r.seed.or settings.diceSeed).getD entropy
    let bag := Random.DiceBag.ofSeed seed.toUInt64
    return { calculation with
      details := calculation.details ++ [⟨"seed", Numeral.natural bag.seed.toNat⟩]
      rolls := (bag.rollMany dice r.rolls).1 }

/-- The price that an expression applies to, if there is one. -/
def basePrice (r : Request) : Except Fault (Option Value) :=
  match r.base with
  | none => .ok none
  | some base =>
    match Value.parse (.measure .money) base with
    | .ok value => .ok (some value)
    | .error cause => .error (.unreadableBase base cause)

/-- Calculates with an expression. -/
def expression (r : Request) : Except Fault Calculation := do
  let expression ← r.reading .expression (Expression.parse r.input)
  let base ← r.basePrice
  let result := ((Expression.applyAll [expression] base).map Value.text).getD missing
  return r.calculation .expression expression.text
    [⟨"priority", Numeral.natural expression.priority⟩, ⟨"result", result⟩]

/-- Calculates with a comment, which may be missing. -/
def comment (r : Request) (settings : Settings) : Calculation :=
  let template := settings.comment.template
  let (read, rest) := template.read r.input.toList
  r.calculation .comment ((read.bind (·.text)).getD "")
    [⟨"valid", if template.check r.input then "true" else "false"⟩,
     ⟨"fixed", (read.bind (·.fix.text)).getD ""⟩,
     ⟨"rest", String.ofList rest⟩]

/-- A measure in the units asked for. -/
def arrange (r : Request) (d : Dimension) (m : Measure (.standard d)) :
    Except Fault (Measure (.standard d)) :=
  match r.target with
  | some name =>
    match (Kind.standard d).family.indexOf name with
    | some index => .ok (m.converted index r.simplify)
    | none => .error (.unknownUnits d name)
  | none => .ok (if r.simplify then m.simplify else m)

/-- The total in gold, which is told for money only. -/
def goldDetails : (d : Dimension) → Measure (.standard d) → List Detail
  | .money, m => [⟨"gold", (Money.inGold m).text⟩]
  | _, _ => []

/-- Calculates with a measure. -/
def measure (r : Request) (d : Dimension) (settings : Settings) : Except Fault Calculation := do
  let m ← r.reading (.measure d) (Measure.parse (.standard d) r.input)
  let shown ← r.arrange d (m.withLevel (settings.simplify.of d))
  return r.calculation (.measure d) shown.text
    ([⟨"short", shown.shortText⟩,
      ⟨"set", (shown.activeSet.map (·.name)).getD missing⟩,
      ⟨"base", shown.asBase.text ++ " " ++ shown.baseUnit⟩]
      ++ goldDetails d m)

end Request

/-- Calculates in a mode. -/
def evaluate (mode : Mode) (r : Request) (settings : Settings) (entropy : Nat) :
    Except Fault Calculation :=
  match mode with
  | .rational => r.rational
  | .dice => r.dice settings entropy
  | .measure d => r.measure d settings
  | .expression => r.expression
  | .comment => .ok (r.comment settings)

end Tabletop.Calculator
