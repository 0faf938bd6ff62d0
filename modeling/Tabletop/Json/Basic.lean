import Tabletop.Text.Numeral

/-!
# JSON values

A JSON value keeps what its text said: members of an object in their order, repeated names included,
and numbers as they were written.

A string may be well formed and still be no text, because an escape in it names half of a surrogate
pair. Such a string is kept as one, without its contents, since it does no harm where it is not
looked at.
-/

namespace Tabletop

/-- A number as written: digits alone, or with a fraction or an exponent. -/
inductive JsonNumber where
  | integer (negative : Bool) (magnitude : Nat)
  /-- The number `significand * 10 ^ exponent`. -/
  | scaled (negative : Bool) (significand : Nat) (exponent : Int)
deriving DecidableEq, Repr

/-- A JSON value; a string or a name without contents is one that is no text. -/
inductive Json where
  | null
  | bool (b : Bool)
  | number (n : JsonNumber)
  | string (s : Option String)
  | array (items : List Json)
  | object (members : List (Option String × Json))

namespace JsonNumber

/-- The integer that a number is. A zero with a minus sign is none, nor is a number with a fraction
or an exponent. -/
def int? : JsonNumber → Option Int
  | .integer false n => some n
  | .integer true n => if n = 0 then none else some (-n)
  | .scaled .. => none

/-- The least magnitude that is rounded to infinity in binary floating point. -/
def overflow : Nat := Nat.pow 2 1024 - Nat.pow 2 970

/-- Whether a number has a finite value in binary floating point. -/
def isFinite : JsonNumber → Bool
  | .integer _ n => n < overflow
  | .scaled _ n e =>
    let places := (Numeral.digits n).length + e
    if n = 0 ∨ places < 300 then true
    else if places > 320 then false
    else if e < 0 then n < overflow * Nat.pow 10 e.natAbs
    else n * Nat.pow 10 e.natAbs < overflow

end JsonNumber

namespace Json

/-- An integer as a value. -/
def int (n : Int) : Json := number (.integer (n < 0) n.natAbs)

/-- A text as a value. -/
def text (s : String) : Json := string (some s)

/-- An object with the given members. -/
def record (members : List (String × Json)) : Json :=
  object (members.map fun (name, value) => (some name, value))

/-- A value or null. -/
def ofOption {α : Type} (encode : α → Json) : Option α → Json
  | some a => encode a
  | none => null

mutual

/-- How deep arrays and objects are nested. -/
def depth : Json → Nat
  | array items => depthItems items + 1
  | object members => depthMembers members + 1
  | _ => 0

/-- The depth of the deepest item. -/
def depthItems : List Json → Nat
  | [] => 0
  | j :: js => max j.depth (depthItems js)

/-- The depth of the deepest member. -/
def depthMembers : List (Option String × Json) → Nat
  | [] => 0
  | (_, j) :: js => max j.depth (depthMembers js)

end

mutual

/-- Whether every string is a text and every number finite. -/
def isSound : Json → Bool
  | number n => n.isFinite
  | string s => s.isSome
  | array items => soundItems items
  | object members => soundMembers members
  | _ => true

/-- Whether all items are sound. -/
def soundItems : List Json → Bool
  | [] => true
  | j :: js => j.isSound && soundItems js

/-- Whether all members are sound and their names are texts. -/
def soundMembers : List (Option String × Json) → Bool
  | [] => true
  | (name, j) :: js => name.isSome && j.isSound && soundMembers js

end

end Json

end Tabletop
