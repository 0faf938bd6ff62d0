/-!
# Contributions

What is added to an entry's values from outside, such as a bonus granted by an item, with the group
it comes from and, if it has one, a title.
-/

namespace Tabletop

/-- A value or an adjustment with its source. -/
structure Contribution (α : Type) where
  value : α
  group : String
  title : Option String
deriving DecidableEq, Repr

namespace Contribution

variable {α : Type}

/-- The group, with the title in parentheses. -/
def description (c : Contribution α) : String :=
  match c.title with
  | some title => c.group ++ " (" ++ title ++ ")"
  | none => c.group

/-- The description and the value in text. -/
def text (write : α → String) (c : Contribution α) : String :=
  c.description ++ ": " ++ write c.value

end Contribution

end Tabletop
