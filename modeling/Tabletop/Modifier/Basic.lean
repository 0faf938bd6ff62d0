import Tabletop.Text.Numeral

/-!
# Modifiers

A bonus has a value, a type, and possibly a condition under which it applies. A modifier is a chain
of at least one bonus.

* **BonusType.isStacking** tells the types whose bonuses all count from those of which only the largest
  does;
* **value**, **minValue** and **maxValue** total a chain: with all bonuses, and with every conditional
  one left out where that lowers or raises the total;
* **add** walks along two chains together and joins bonuses that meet with the same type and
  condition.
-/

namespace Tabletop

/-- The source of a bonus, which decides how it stacks. -/
inductive BonusType where
  | dodge
  | armor
  | equipment
  | shield
  | general
  | naturalArmor
  | ability
  | size
  | racial
  | circumstance
  | enhancement
  | deflection
  | competence
deriving DecidableEq, Repr

namespace BonusType

/-- All types. -/
def all : List BonusType :=
  [.dodge, .armor, .equipment, .shield, .general, .naturalArmor, .ability, .size, .racial,
   .circumstance, .enhancement, .deflection, .competence]

/-- The name of a type in texts. -/
def name : BonusType → String
  | .dodge => "dodge"
  | .armor => "armor"
  | .equipment => "equipment"
  | .shield => "shield"
  | .general => "general"
  | .naturalArmor => "natural armor"
  | .ability => "ability"
  | .size => "size"
  | .racial => "racial"
  | .circumstance => "circumstance"
  | .enhancement => "enhancement"
  | .deflection => "deflection"
  | .competence => "competence"

/-- The name of a type in records. -/
def key : BonusType → String
  | .naturalArmor => "natural_armor"
  | kind => kind.name

/-- The type with a name. -/
def ofName? (name : String) : Option BonusType := all.find? fun kind => kind.name == name

/-- The type with a record name. -/
def ofKey? (key : String) : Option BonusType := all.find? fun kind => kind.key == key

/-- Whether several bonuses of the type add up instead of only the largest one counting. -/
def isStacking : BonusType → Bool
  | .dodge | .general | .ability | .circumstance => true
  | _ => false

end BonusType

/-- A typed bonus, possibly guarded by a condition. -/
structure Bonus where
  value : Int
  kind : BonusType
  condition : Option String
deriving DecidableEq, Repr

namespace Bonus

/-- Whether two bonuses are combined when they meet. -/
def meets (a b : Bonus) : Bool := a.kind == b.kind && a.condition == b.condition

/-- Two bonuses of one type and condition as one. -/
def join (a b : Bonus) : Bonus :=
  { a with value := if a.kind.isStacking then a.value + b.value else max a.value b.value }

/-- Penalties and conditional bonuses always stack. -/
def isStacking (b : Bonus) : Bool := b.value < 0 || b.condition.isSome || b.kind.isStacking

/-- The least that the bonus may count. -/
def least (b : Bonus) : Int := if b.condition.isSome then min b.value 0 else b.value

/-- The most that the bonus may count. -/
def most (b : Bonus) : Int := if b.condition.isSome then max b.value 0 else b.value

/-- What some bonuses count together, each as `f` tells. -/
def sum (f : Bonus → Int) (bs : List Bonus) : Int := bs.foldr (fun b total => f b + total) 0

theorem sum_cons (f : Bonus → Int) (b : Bonus) (bs : List Bonus) :
    sum f (b :: bs) = f b + sum f bs := rfl

/-- The bonus with its sign and type. -/
def baseText (b : Bonus) : String := Numeral.signed b.value ++ " " ++ b.kind.name

/-- The bonus with its condition. -/
def text (b : Bonus) : String :=
  b.baseText ++
    match b.condition with
    | some condition => " if \"" ++ condition ++ "\""
    | none => ""

/-- Walks along two rows of bonuses: where both meet they are joined, otherwise the first goes on
alone. -/
def merge : List Bonus → List Bonus → List Bonus
  | [], bs => bs
  | as, [] => as
  | a :: as, b :: bs => if a.meets b then a.join b :: merge as bs else a :: merge as (b :: bs)

end Bonus

/-- A chain of bonuses. -/
structure Modifier where
  first : Bonus
  others : List Bonus
deriving DecidableEq, Repr

namespace Modifier

/-- A single bonus without a condition. -/
def single (value : Int) (kind : BonusType) : Modifier := ⟨⟨value, kind, none⟩, []⟩

/-- A single bonus of the general type. -/
def general (value : Int) : Modifier := single value .general

/-- The bonuses of a chain in order. -/
def links (m : Modifier) : List Bonus := m.first :: m.others

/-- The chain of some bonuses, if there are any. -/
def ofLinks? : List Bonus → Option Modifier
  | [] => none
  | first :: others => some ⟨first, others⟩

/-- Guards the first bonus by a condition, which extends one it already has. -/
def withCondition (m : Modifier) (condition : String) : Modifier :=
  let extended := match m.first.condition with
    | some held => held ++ " and " ++ condition
    | none => condition
  { m with first := { m.first with condition := some extended } }

/-- One chain behind the other. -/
def chain (m n : Modifier) : Modifier := { m with others := m.others ++ n.links }

/-- The total of all bonuses. -/
def value (m : Modifier) : Int := Bonus.sum (·.value) m.links

/-- The least total, conditional bonuses applying or not. -/
def minValue (m : Modifier) : Int := Bonus.sum Bonus.least m.links

/-- The greatest total, conditional bonuses applying or not. -/
def maxValue (m : Modifier) : Int := Bonus.sum Bonus.most m.links

/-- The chain behind the first bonus. -/
def next? (m : Modifier) : Option Modifier := ofLinks? m.others

/-- Whether the bonuses cancel out. -/
def isZero (m : Modifier) : Bool := m.value == 0

/-- Whether the first bonus stacks. -/
def isStacking (m : Modifier) : Bool := m.first.isStacking

/-- Whether the first bonus still counts next to another one: either stacks, or this is larger. -/
def stacksOrExceeds (m n : Modifier) : Bool :=
  m.isStacking || n.isStacking || m.first.value > n.first.value

/-- Whether the first bonus counts next to all others. -/
def stacksOrExceedsAll (m : Modifier) (others : List Modifier) : Bool :=
  m.first.value < 0 || others.all m.stacksOrExceeds

/-- Two chains as one. -/
def add (m n : Modifier) : Modifier :=
  if m.first.meets n.first then ⟨m.first.join n.first, Bonus.merge m.others n.others⟩
  else ⟨m.first, Bonus.merge m.others n.links⟩

/-- The chain without the bonuses of some types; penalties stay. -/
def ignore (m : Modifier) (kinds : List BonusType) : Option Modifier :=
  ofLinks? (m.links.filter fun b => b.value < 0 || !kinds.contains b.kind)

/-- Every bonus with its sign and type. -/
def baseTexts (m : Modifier) : List String := m.links.map Bonus.baseText

/-- The chain in text. -/
def text (m : Modifier) : String := String.intercalate " " (m.links.map Bonus.text)

/-- **Adding chains** merges their bonuses. -/
theorem links_add (m n : Modifier) : (m.add n).links = Bonus.merge m.links n.links := by
  unfold add links
  split
  · rename_i h
    simp only [Bonus.merge, h, if_true]
  · rename_i h
    simp only [Bonus.merge, h, if_false, Bool.false_eq_true]

end Modifier

end Tabletop
