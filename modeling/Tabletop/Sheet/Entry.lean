import Tabletop.Modifier.Basic

/-!
# Entries

An entry of a rule book or a character sheet stores values and modifiers under names, and may derive
from base entries, which have entries of their own below them.
-/

namespace Tabletop

/-- What an entry stores under a name: a value of its own, or a modifier to inherited ones. -/
inductive Stored (α : Type) where
  | plain (value : α)
  | modifier (modifier : Modifier)

/-- An entry with what it stores and the entries that it derives from. -/
inductive Entry (α : Type) where
  | mk (key : String) (stored : List (String × Stored α)) (bases : List (Entry α))

namespace Entry

variable {α : Type}

/-- What identifies the entry. -/
def key : Entry α → String
  | mk key _ _ => key

/-- The entries that this one derives from. -/
def bases : Entry α → List (Entry α)
  | mk _ _ bases => bases

/-- What the entry itself stores under a name; the first one counts. -/
def stored? (name : String) : Entry α → Option (Stored α)
  | mk _ stored _ => (stored.find? fun (held, _) => held == name).map (·.2)

end Entry

end Tabletop
