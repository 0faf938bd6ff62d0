import Tabletop.Measure.Basic
import Tabletop.Record.Numbers

/-!
# Records of measures

A measure's record names its set and lists the amounts in its slots. The level is recorded only if it
is not the usual one of the kind; a record without a set stands for the undefined measure.
-/

namespace Tabletop.Record

/-- The contents of a measure's record. -/
structure MeasureParts where
  set : Option String
  slots : List (Option (Int × Int × Int))
  level : Option Int

/-- The contents of a measure's record. -/
def measureParts? (j : Json) : Option MeasureParts := do
  let f ← j.fields? ["set", "values", "level"]
  let set ← f.optional "set" Json.text?
  let slots ← f.withDefault "values" [] fun values => do
    (← values.items?).mapM (Json.nullable mixedParts?)
  let level ← f.withDefault "level" none (Json.nullable Json.int?)
  some ⟨set, slots, level⟩

/-- The amount in a slot. -/
def slotOf : Option (Int × Int × Int) → Except Failure (Option Rational)
  | some parts => (rationalOf parts).map some
  | none => .ok none

/-- The measure with the given contents. -/
def measureOf (k : Kind) (parts : MeasureParts) : Except Failure (Measure k) :=
  match parts.set with
  | none => .ok .undefined
  | some set => do
    let slots ← parts.slots.mapM slotOf
    let m ← Measure.inSet k set slots
    match parts.level with
    | some level => .ok (m.withLevel level)
    | none => .ok m

/-- The record of a measure. -/
def ofMeasure {k : Kind} (m : Measure k) : Json :=
  .record
    ([("set", .ofOption (fun set => .text set.name) m.activeSet),
      ("values", .array (m.slots.map (.ofOption ofRational)))]
      ++ if m.level = k.level then [] else [("level", .int m.level)])

instance (k : Kind) : Recorded (Measure k) where
  encode := ofMeasure
  decode j := do measureOf k (← shaped (measureParts? j))

end Tabletop.Record
