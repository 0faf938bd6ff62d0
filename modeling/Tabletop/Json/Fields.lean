import Tabletop.Json.Basic

/-!
# Fields of JSON values

Reading typed contents off a value, and failing by `none` if its shape is not right.

* **fields?** takes a record from an object, where unknown members are skipped and a known one may
  occur once, or from an array that gives the fields in their order;
* **required**, **optional** and **withDefault** look fields up;
* **keyword?** reads a name out of a fixed choice.

Records and lists may nest to a depth of 127; `room` is what is left of it. A value that was read as
a whole beforehand is no longer limited.
-/

namespace Tabletop.Json

/-- The depth to which values may nest. -/
def maxDepth : Nat := 127

/-- What is left of the depth below a value; without bound if there was none. -/
abbrev Room := Option Nat

/-- The room inside of a record or list, if there is any. -/
def Room.enter : Room → Option Room
  | none => some none
  | some (n + 1) => some (some n)
  | some 0 => none

/-- The fields of a record: found by name, or by position. -/
structure Fields where
  found : List (String × Json)
  positional : Bool

/-- The members with known names, unless one is repeated or a name is no text. -/
def knownMembers (names : List String) :
    List (Option String × Json) → Option (List (String × Json))
  | [] => some []
  | (none, _) :: _ => none
  | (some name, value) :: rest => do
    let found ← knownMembers names rest
    if !names.contains name then some found
    else if found.any fun (other, _) => other == name then none
    else some ((name, value) :: found)

/-- The fields of a record with the given names. -/
def fields? (names : List String) : Json → Option Fields
  | object members => (knownMembers names members).map fun found => ⟨found, false⟩
  | array items => if items.length ≤ names.length then some ⟨names.zip items, true⟩ else none
  | _ => none

namespace Fields

/-- The value of a field. -/
def get? (f : Fields) (name : String) : Option Json :=
  (f.found.find? fun (other, _) => other == name).map (·.2)

variable {α : Type}

/-- A field that must be there. -/
def required (f : Fields) (name : String) (decode : Json → Option α) : Option α :=
  (f.get? name).bind decode

/-- A field that has a default. -/
def withDefault (f : Fields) (name : String) (default : α) (decode : Json → Option α) :
    Option α :=
  match f.get? name with
  | some value => decode value
  | none => some default

end Fields

/-- Null, or a value. -/
def nullable {α : Type} (decode : Json → Option α) : Json → Option (Option α)
  | null => some none
  | value => (decode value).map some

/-- An optional field of an object, which may be null or missing; by position it may be null only. -/
def Fields.optional {α : Type} (f : Fields) (name : String) (decode : Json → Option α) :
    Option (Option α) :=
  match f.get? name with
  | some value => nullable decode value
  | none => if f.positional then none else some none

/-- A stored integer. -/
def int? : Json → Option Int
  | number n => n.int?.filter fun i => decide (Fits i)
  | _ => none

/-- A magnitude of up to 64 bits. -/
def nat? : Json → Option Nat
  | number n => (n.int?.filter fun i => decide (0 ≤ i ∧ i < 18446744073709551616)).map Int.toNat
  | _ => none

/-- A text. -/
def text? : Json → Option String
  | string s => s
  | _ => none

/-- The items of a list. -/
def items? : Json → Option (List Json)
  | array items => some items
  | _ => none

/-- A name out of a choice: a string, or an object with that name as its only member and null as its
value. In a value that was read as a whole an empty object may stand for null. -/
def keyword? {α : Type} (choose : String → Option α) (room : Room) : Json → Option α
  | string (some s) => choose s
  | object [(some name, null)] => room.enter.bind fun _ => choose name
  | object [(some name, object [])] => if room = none then choose name else none
  | _ => none

end Tabletop.Json
