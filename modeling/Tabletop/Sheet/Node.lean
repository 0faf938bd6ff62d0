import Tabletop.Value.Quantity

/-!
# Derivation trees

Which entry gave which value. A node holds one entry's value, if it has any; its children are the
entries that it derives from and the values contributed to it.

* **origins** lists a tree depth first;
* **flatten** sums the defined values of a tree into groups: going through it depth first, a value
  joins the first group that it can be added to, or founds a new one.
-/

namespace Tabletop

/-- A value, the entry it belongs to, and how it got into the tree. -/
structure Origin (α : Type) where
  entry : String
  value : Option α
  description : Option String
deriving DecidableEq, Repr

/-- A node of a derivation tree. -/
inductive Node (α : Type) where
  | mk (origin : Origin α) (children : List (Node α))

/-- A sum with all it is the sum of. -/
structure Group (α : Type) where
  value : α
  members : List (Origin α)

namespace Node

variable {α : Type}

/-- A node without children. -/
def leaf (origin : Origin α) : Node α := mk origin []

/-- What the node itself holds. -/
def origin : Node α → Origin α
  | mk origin _ => origin

/-- The nodes below. -/
def children : Node α → List (Node α)
  | mk _ children => children

/-- The node with more children behind those it has. -/
def addChildren (n : Node α) (more : List (Node α)) : Node α := mk n.origin (n.children ++ more)

mutual

/-- All that the tree holds, depth first. -/
def origins : Node α → List (Origin α)
  | mk origin children => origin :: originsAll children

/-- All that some trees hold, depth first. -/
def originsAll : List (Node α) → List (Origin α)
  | [] => []
  | n :: ns => n.origins ++ originsAll ns

end

mutual

/-- The tree with a description added to every node. -/
def describe (description : String) : Node α → Node α
  | mk origin children =>
    let extended := match origin.description with
      | some held => held ++ ", " ++ description
      | none => description
    mk { origin with description := some extended } (describeAll description children)

/-- Some trees with a description added to every node. -/
def describeAll (description : String) : List (Node α) → List (Node α)
  | [] => []
  | n :: ns => n.describe description :: describeAll description ns

end

variable [Quantity α]

mutual

/-- The tree in text. -/
def text : Node α → String
  | mk origin children =>
    origin.entry ++ " = " ++ (origin.value.map Quantity.text).getD "-" ++
      if children.isEmpty then "" else " [" ++ String.intercalate ", " (textAll children) ++ "]"

/-- Some trees in text. -/
def textAll : List (Node α) → List String
  | [] => []
  | n :: ns => n.text :: textAll ns

end

end Node

namespace Group

variable {α : Type} [Quantity α]

/-- A group joins the first of some groups that it can be added to, or comes after them. -/
def mergeInto : List (Group α) → Group α → List (Group α)
  | [], g => [g]
  | held :: rest, g =>
    if Quantity.kindName held.value = Quantity.kindName g.value
        ∧ Quantity.canAdd held.value g.value then
      match Quantity.add held.value g.value with
      | .ok sum => ⟨sum, held.members ++ g.members⟩ :: rest
      | .error _ => held :: mergeInto rest g
    else held :: mergeInto rest g

end Group

namespace Node

variable {α : Type} [Quantity α]

/-- The group of a single defined value. -/
def ownGroup (origin : Origin α) : List (Group α) :=
  match origin.value with
  | some value => if Quantity.isDefined value then [⟨value, [origin]⟩] else []
  | none => []

mutual

/-- The defined values of a tree, summed into groups. -/
def flatten : Node α → List (Group α)
  | mk origin children => flattenOnto (ownGroup origin) children

/-- The groups of some trees, merged one after the other into those at hand. -/
def flattenOnto (groups : List (Group α)) : List (Node α) → List (Group α)
  | [] => groups
  | n :: ns => flattenOnto (n.flatten.foldl Group.mergeInto groups) ns

end

/-- The defined values below a node, summed into groups. -/
def flattenBelow (n : Node α) : List (Group α) := flattenOnto [] n.children

end Node

end Tabletop
