import Tabletop.Failure
import Tabletop.Modifier.Basic

/-!
# Modified numbers

A base number with modifiers under names. Modifiers given under one name add up there, and all of
them together add up to the total that decides the range.
-/

namespace Tabletop

/-- Modifiers under names, in the order of the names. -/
abbrev NamedModifiers := List (String × Modifier)

namespace NamedModifiers

/-- Adds a modifier to what is held under a name. -/
def give (name : String) (modifier : Modifier) : NamedModifiers → NamedModifiers
  | [] => [(name, modifier)]
  | (held, m) :: rest =>
    if name = held then (held, m.add modifier) :: rest
    else if name < held then (name, modifier) :: (held, m) :: rest
    else (held, m) :: give name modifier rest

@[simp] theorem give_nil (name : String) (modifier : Modifier) :
    give name modifier [] = [(name, modifier)] := rfl

theorem give_cons (name held : String) (modifier m : Modifier) (rest : NamedModifiers) :
    give name modifier ((held, m) :: rest) =
      if name = held then (held, m.add modifier) :: rest
      else if name < held then (name, modifier) :: (held, m) :: rest
      else (held, m) :: give name modifier rest := rfl

end NamedModifiers

/-- A number with the modifiers applied to it. -/
structure ModifiedNumber where
  base : Int
  modifiers : NamedModifiers
  total : Option Modifier
deriving DecidableEq, Repr

namespace ModifiedNumber

/-- A plain number. -/
def ofBase (base : Int) : ModifiedNumber := ⟨base, [], none⟩

/-- The number with one more modifier, added to those of the same name. -/
def withMerged (n : ModifiedNumber) (modifier : Modifier) (name : String) : ModifiedNumber :=
  { n with
    modifiers := n.modifiers.give name modifier
    total := match n.total with
      | some total => some (total.add modifier)
      | none => some modifier }

/-- The number with a modifier under a name not used so far. -/
def withModifier (n : ModifiedNumber) (modifier : Modifier) (name : String) :
    Except Failure ModifiedNumber :=
  if n.modifiers.any fun (held, _) => held == name then .error (.duplicateModifier name)
  else .ok (n.withMerged modifier name)

/-- The least value. -/
def minValue (n : ModifiedNumber) : Int := n.base + (n.total.map Modifier.minValue).getD 0

/-- The greatest value. -/
def maxValue (n : ModifiedNumber) : Int := n.base + (n.total.map Modifier.maxValue).getD 0

/-- Whether conditions make the value a range. -/
def isRanged (n : ModifiedNumber) : Bool := n.minValue ≠ n.maxValue

/-- The value, or its bounds. -/
def text (n : ModifiedNumber) : String :=
  if n.isRanged then Numeral.plain n.minValue ++ "-" ++ Numeral.plain n.maxValue
  else Numeral.plain n.minValue

end ModifiedNumber

end Tabletop
