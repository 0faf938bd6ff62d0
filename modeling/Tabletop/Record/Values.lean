import Tabletop.Record.Basic
import Tabletop.Value.Basic

/-!
# Records of values

The record of a value of any kind has the name of the kind and the value's text.
-/

namespace Tabletop.Record

/-- The kind and the text in a record. -/
def valueParts? (j : Json) : Option (ValueKind × String) := do
  let f ← j.fields? ["kind", "text"]
  let kind ← f.required "kind" (Json.keyword? ValueKind.ofName? (some (Json.maxDepth - 1)))
  let text ← f.required "text" Json.text?
  some (kind, text)

instance : Recorded Value where
  encode v := .record [("kind", .text v.kind.name), ("text", .text v.text)]
  decode j := do
    let (kind, text) ← shaped (valueParts? j)
    Value.parse kind text

end Tabletop.Record
