import Tabletop.Text.Numeral

/-!
# Failures

What can go wrong when a value is made, combined or read, as causes. The wording of each cause is
in **message** and nowhere else.
-/

namespace Tabletop

/-- Why a text does not define a family of units. -/
inductive DefinitionFailure where
  /-- `what` is missing in the part `context`. -/
  | expected (what context : String)
  /-- A factor is not a pair of positive integers. -/
  | invalidFactor (factor : String)
  | emptySet (set : String)
  /-- A set has `found` base units instead of one. -/
  | baseUnits (set : String) (found : Nat)
  /-- A spelling belongs to two units of a set. -/
  | duplicateName (set name : String)
  | noSets
deriving DecidableEq, Repr

/-- The wording of a definition failure. -/
def DefinitionFailure.message : DefinitionFailure → String
  | .expected what context => "expected '" ++ what ++ "' in definition '" ++ context ++ "'"
  | .invalidFactor factor =>
    "invalid factor '" ++ factor ++ "' (expected mult/div with positive integers)"
  | .emptySet set => "set '" ++ set ++ "' has no units"
  | .baseUnits set found =>
    "set '" ++ set ++ "' must have exactly one base unit (found " ++ Numeral.natural found ++ ")"
  | .duplicateName set name => "duplicate unit name '" ++ name ++ "' in set '" ++ set ++ "'"
  | .noSets => "definition contains no sets"

/-- Why a value could not be made, combined or read. -/
inductive Failure where
  | zeroDenominator
  | divisionByZero
  /-- The text does not read as a value of the kind. -/
  | unreadable (kind text : String)
  /-- Dice with different numbers of sides were added. -/
  | incompatibleDice (left right : Nat)
  | incompatibleKinds (left right : String)
  | unknownSet (index count : Nat)
  /-- The amounts given do not match the units of the set one to one. -/
  | slotMismatch (kind set : String) (given expected : Nat)
  | notPositive (field : String) (value : Int)
  | tooLarge (field : String) (most value : Int)
  | casterLevelTooLow (spellLevel casterLevel minimum : Int)
  | unknownMagicItem (name : String)
  | invalidComment (starter : String)
  /-- `taken` coins were to be taken away where only `held` are present. -/
  | insufficientFunds (taken : Int) (coin held : String)
  | duplicateModifier (name : String)
  /-- A record is not well-formed JSON of the right shape. -/
  | malformedRecord
  | definition (cause : DefinitionFailure)
deriving DecidableEq, Repr

/-- The wording of a failure. -/
def Failure.message : Failure → String
  | .zeroDenominator => "denominator must not be zero"
  | .divisionByZero => "division by zero"
  | .unreadable kind text => "could not parse " ++ kind ++ " from '" ++ text ++ "'"
  | .incompatibleDice left right =>
    "cannot add dice with " ++ Numeral.natural left ++ " and " ++ Numeral.natural right ++ " sides"
  | .incompatibleKinds left right => "cannot combine " ++ left ++ " with " ++ right
  | .unknownSet index count =>
    "unit set index " ++ Numeral.natural index ++ " out of range (family has "
      ++ Numeral.natural count ++ " sets)"
  | .slotMismatch kind set given expected =>
    kind ++ " slot count " ++ Numeral.natural given ++ " does not match set '" ++ set ++ "' with "
      ++ Numeral.natural expected ++ " units"
  | .notPositive field value => field ++ " must be positive (got " ++ Numeral.plain value ++ ")"
  | .tooLarge field most value =>
    field ++ " must be at most " ++ Numeral.plain most ++ " (got " ++ Numeral.plain value ++ ")"
  | .casterLevelTooLow spellLevel casterLevel minimum =>
    "caster level " ++ Numeral.plain casterLevel ++ " too low for spell level "
      ++ Numeral.plain spellLevel ++ " (minimum " ++ Numeral.plain minimum ++ ")"
  | .unknownMagicItem name => "unknown magic item '" ++ name ++ "'"
  | .invalidComment starter =>
    "comment text must only contain lines starting with '" ++ starter ++ "'"
  | .insufficientFunds taken coin held =>
    "not enough money: cannot take " ++ Numeral.plain taken ++ " " ++ coin ++ " from " ++ held
      ++ " " ++ coin
  | .duplicateModifier name => "modifier '" ++ name ++ "' is already present"
  | .malformedRecord => "invalid record"
  | .definition cause => cause.message

end Tabletop
