import Tabletop.Failure
import Tabletop.Json.Fields
import Tabletop.Json.Parser
import Tabletop.Json.Printer

/-!
# Records

Values are stored as JSON records. Reading a record goes in two steps: its shape must be right as a
whole, or the record is malformed; then its contents are checked as the value's own operations
check them.
-/

namespace Tabletop

/-- A type of values with records. -/
class Recorded (α : Type) where
  /-- The record of a value. -/
  encode : α → Json
  /-- The value of a record. -/
  decode : Json → Except Failure α

namespace Record

/-- The contents of a record, or that it is malformed. -/
def shaped {β : Type} : Option β → Except Failure β
  | some contents => .ok contents
  | none => .error .malformedRecord

/-- The record of a value as a JSON text. -/
def toJson {α : Type} [Recorded α] (a : α) : String := (Recorded.encode a).compact

/-- The value whose record is a JSON text. -/
def ofJson {α : Type} [Recorded α] (source : String) : Except Failure α := do
  Recorded.decode (← shaped (Json.parse source))

end Record

end Tabletop
