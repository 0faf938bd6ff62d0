import Tabletop.Expression.Pricing
import Tabletop.Modifier.Number
import Tabletop.Sheet.Contribution
import Tabletop.Sheet.Entry
import Tabletop.Sheet.Node

/-!
# Combinations

All that is stored under one name by an entry and the entries it derives from, together with what is
contributed from outside.

* **collect** goes through the entries depth first: modifiers are put aside, every other entry gets a
  node; the bases of an entry without a node hang below the first of their nodes;
* **values**, **total**, **base**, **minimum** and **maximum** sum and compare the values, and apply the
  expressions to the result;
* **modifier** gives the modifiers as a number. A plain number that would come last among the values
  is one of the modifiers as soon as there are any.
-/

namespace Tabletop

/-- The values, modifiers and expressions combined under a name for an entry. -/
structure Combination (α : Type) where
  name : String
  entry : String
  root : Option (Node α)
  values : List (Contribution α)
  modifiers : List (Contribution Modifier)
  expressions : List (Contribution Expression)

namespace Entry

variable {α : Type}

/-- The trees of the bases below an entry's own node; without one the first tree takes the others
in. -/
def rootOver (own : Option (Node α)) (below : List (Node α)) : Option (Node α) :=
  match own, below with
  | some n, below => some (n.addChildren below)
  | none, first :: rest => some (first.addChildren rest)
  | none, [] => none

/-- The node of what an entry stores under a name; none for a modifier. -/
def ownNode (key : String) : Option (Stored α) → Option (Node α)
  | some (.plain value) => some (.leaf ⟨key, some value, none⟩)
  | some (.modifier _) => none
  | none => some (.leaf ⟨key, none, none⟩)

/-- The modifier that an entry stores under a name. -/
def ownModifiers (key : String) : Option (Stored α) → List (Contribution Modifier)
  | some (.modifier m) => [⟨m, key, some "collect"⟩]
  | _ => []

mutual

/-- The tree of what an entry and its bases store under a name, and the modifiers among it. -/
def collect (name : String) : Entry α → Option (Node α) × List (Contribution Modifier)
  | mk key stored bases =>
    let own := (mk key stored bases).stored? name
    let (below, modifiers) := collectAll name bases
    (rootOver (ownNode key own) below, ownModifiers key own ++ modifiers)

/-- The trees and the modifiers of some entries. -/
def collectAll (name : String) : List (Entry α) → List (Node α) × List (Contribution Modifier)
  | [] => ([], [])
  | e :: es =>
    let (tree, modifiers) := e.collect name
    let (trees, more) := collectAll name es
    (tree.toList ++ trees, modifiers ++ more)

end

end Entry

namespace Combination

variable {α : Type}

/-- Nothing combined yet. -/
def empty (name entry : String) : Combination α := ⟨name, entry, none, [], [], []⟩

/-- What an entry and its bases store under a name. -/
def collect (name : String) (e : Entry α) : Combination α :=
  let (root, modifiers) := e.collect name
  ⟨name, e.key, root, [], modifiers, []⟩

/-- Adds a value: below the root as a described child, or beside where there is no root. -/
def addValue (c : Combination α) (value : Contribution α) : Combination α :=
  match c.root with
  | some root =>
    let child := Node.leaf ⟨value.group, some value.value, some value.description⟩
    { c with root := some (root.addChildren [child]) }
  | none => { c with values := c.values ++ [value] }

/-- Adds a modifier. -/
def addModifier (c : Combination α) (modifier : Contribution Modifier) : Combination α :=
  { c with modifiers := c.modifiers ++ [modifier] }

/-- Adds an expression. -/
def addExpression (c : Combination α) (expression : Contribution Expression) : Combination α :=
  { c with expressions := c.expressions ++ [expression] }

/-- Takes over the tree of another combination, described, and its modifiers. -/
def add (c d : Combination α) (description : String) : Combination α :=
  let root := match c.root, d.root.map (·.describe description) with
    | some root, some other => some (root.addChildren [other])
    | none, other => other
    | root, none => root
  { c with root, modifiers := c.modifiers ++ d.modifiers }

variable [Quantity α]

/-- The groups without a plain number at the end. -/
def dropNumber (groups : List (Group α)) : List (Group α) :=
  match groups.getLast? with
  | some last => if (Quantity.number? last.value).isSome then groups.dropLast else groups
  | none => groups

/-- The groups that count as values; with modifiers, a number at the end is one of them. -/
def valueGroups (c : Combination α) (groups : List (Group α)) : List (Group α) :=
  if c.modifiers.isEmpty then groups else dropNumber groups

/-- The groups of the whole tree. -/
def treeGroups (c : Combination α) : List (Group α) := (c.root.map Node.flatten).getD []

/-- The values: those of the tree, then those beside it. -/
def valuesOnly (c : Combination α) : List α :=
  (c.valueGroups c.treeGroups).map (·.value) ++ c.values.map (·.value)

/-- The values with the descriptions of what they are the sum of. -/
def describedValues (c : Combination α) : List (α × String) :=
  ((c.valueGroups c.treeGroups).map fun g =>
    (g.value, String.intercalate ", " (g.members.filterMap (·.description))))
    ++ c.values.map fun v => (v.value, v.description)

/-- A value with the expressions applied, in canonical form. -/
def finish (c : Combination α) (value : Option α) : Option α :=
  let applied := if c.expressions.isEmpty then value
    else Expression.applyAll (c.expressions.map (·.value)) value
  applied.map Quantity.simplified

/-- The sum of some values, if there are any. -/
def sum : List α → Except Failure (Option α)
  | [] => .ok none
  | v :: vs => (vs.foldlM Quantity.add v).map some

/-- The sum of all values. -/
def total (c : Combination α) : Except Failure (Option α) := (sum c.valuesOnly).map c.finish

/-- The sum without the value of the entry itself. -/
def base (c : Combination α) : Except Failure (Option α) :=
  let below := (c.root.map Node.flattenBelow).getD []
  (sum ((c.valueGroups below).map (·.value) ++ c.values.map (·.value))).map c.finish

/-- The first value that no later one goes beyond in the wanted direction. -/
def pick (wanted : Ordering) : List α → Option α
  | [] => none
  | v :: vs =>
    some (vs.foldl (fun best w => if Quantity.compare w best = some wanted then w else best) v)

/-- The smallest value. -/
def minimum (c : Combination α) : Option α := c.finish (pick .lt c.valuesOnly)

/-- The greatest value. -/
def maximum (c : Combination α) : Option α := c.finish (pick .gt c.valuesOnly)

/-- Whether there are modifiers. -/
def hasModifiers (c : Combination α) : Bool := !c.modifiers.isEmpty

/-- Whether there are values. -/
def hasValue (c : Combination α) : Bool := !c.valuesOnly.isEmpty

/-- The modifiers as a number based on zero. -/
def foldModifiers (modifiers : List (Contribution Modifier)) : ModifiedNumber :=
  modifiers.foldl (fun number m => number.withMerged m.value m.description) (.ofBase 0)

/-- A number with the plain numbers of a group as general modifiers. -/
def withNumbers (number : ModifiedNumber) (g : Group α) : ModifiedNumber :=
  g.members.foldl (fun number member =>
    match member.value.bind Quantity.number? with
    | some n => number.withMerged (.general n) (member.description.getD member.entry)
    | none => number) number

/-- The modifiers, with a plain number at the end of the tree's groups, as a number. -/
def modifier (c : Combination α) : ModifiedNumber :=
  let number := foldModifiers c.modifiers
  match c.treeGroups.getLast? with
  | some last => if (Quantity.number? last.value).isSome then withNumbers number last else number
  | none => number

/-- The value that the entry itself stores. -/
def topValue (c : Combination α) : Option α := c.root.bind fun root => root.origin.value

/-- Whether the entry itself stores the value. -/
def isEditable (c : Combination α) : Bool := c.topValue.isSome

/-- A labelled list of contributions; an empty one is left out. -/
def listText {β : Type} (label : String) (write : β → String) (items : List (Contribution β)) :
    String :=
  if items.isEmpty then ""
  else ", " ++ label ++ " [" ++ String.intercalate "; " (items.map (·.text write)) ++ "]"

/-- All that was combined, in text. -/
def text (c : Combination α) : String :=
  c.name ++ " (" ++ c.entry ++ "): " ++ (c.root.map Node.text).getD "-"
    ++ listText "modifiers" Modifier.text c.modifiers
    ++ listText "values" Quantity.text c.values
    ++ listText "expressions" Expression.text c.expressions

end Combination

end Tabletop
