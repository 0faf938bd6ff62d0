import Tabletop.Measure.Family

/-!
# Definitions of families

A family is declared in a small notation:

    1/1 : Feet = 5280/1 : mi : mile|miles, 1/1 : ft : foot|feet.
    2/5 : Metric = 1000/1 : km, 1/1 : m

Sets end with a point and units are separated by commas. A unit is its ratio, then its name, which
may be followed by its plural and other spellings, then further lists of spellings after colons.
Blank sets and units are skipped; the first fault found is reported.
-/

namespace Tabletop.Family

open Text

/-- Reads `MULTIPLIER / DIVISOR`, both positive. -/
def parseRatio (cs : List Char) : Except DefinitionFailure (Int × Int) :=
  match splitOnce '/' cs with
  | none => .error (.invalidFactor (trimmed cs))
  | some (left, right) =>
    match Numeral.int? (trim left), Numeral.int? (trim right) with
    | some m, some d => if m ≤ 0 ∨ d ≤ 0 then .error (.invalidFactor (trimmed cs)) else .ok (m, d)
    | _, _ => .error (.invalidFactor (trimmed cs))

/-- The spellings in a list separated by bars. -/
def parseNames (cs : List Char) : List String :=
  ((cs.splitOn '|').map trim).filterMap fun name =>
    if name = [] then none else some (String.ofList name)

/-- Reads one unit. -/
def parseUnit (cs : List Char) : Except DefinitionFailure MeasureUnit :=
  match cs.splitOn ':' with
  | ratio :: names :: more => do
    let (multiplier, divisor) ← parseRatio ratio
    match parseNames names with
    | [] => .error (.expected "unit name" (trimmed cs))
    | name :: others =>
      MeasureUnit.make name (others.headD name) multiplier divisor (others.tail ++ more.flatMap parseNames)
  | _ => .error (.expected ":" (trimmed cs))

/-- Reads one set. -/
def parseSet (cs : List Char) : Except DefinitionFailure UnitSet :=
  match splitOnce '=' cs with
  | none => .error (.expected "=" (trimmed cs))
  | some (head, body) =>
    match splitOnce ':' head with
    | none => .error (.expected ":" (trimmed head))
    | some (ratio, name) => do
      let (multiplier, divisor) ← parseRatio ratio
      let units ← ((body.splitOn ',').filter fun part => !isBlankText part).mapM parseUnit
      UnitSet.make (trimmed name) multiplier divisor units

/-- Reads a family. -/
def parse (definition : String) : Except DefinitionFailure Family := do
  let sets ← ((definition.toList.splitOn '.').filter fun part => !isBlankText part).mapM parseSet
  make sets

end Tabletop.Family
