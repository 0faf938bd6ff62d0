import Tabletop.Calculator.Basic
import Tabletop.Decimal.Places
import Tabletop.Json.Printer
import Tabletop.Text.Escaped

/-!
# Reports

A calculation as lines for a reader, or as JSON. In the lines, input and details are escaped, so that
each takes one line; the value stands as it is.
-/

namespace Tabletop.Calculator

/-- The mean of some rolls. -/
def mean (rolls : List Int) : Float :=
  Rational.floatOfInt (rolls.foldl (· + ·) 0) / Rational.floatOfInt rolls.length

/-- A text with blanks behind it up to a width. -/
def column (width : Nat) (text : String) : String :=
  text ++ String.ofList (List.replicate (width - text.length) ' ')

/-- A text made visible on one line. -/
def visible (text : String) : String := String.ofList (Text.escaped text.toList)

namespace Detail

/-- The line of a detail. -/
def line (d : Detail) : String := "  " ++ column 10 d.label ++ " " ++ visible d.value

/-- The record of a detail. -/
def encode (d : Detail) : Json := .record [("label", .text d.label), ("value", .text d.value)]

end Detail

/-- The lines about rolls. -/
def rollLines (rolls : List Int) : List String :=
  if rolls.isEmpty then []
  else
    ["🎲 Rolls", "  " ++ String.intercalate ", " (rolls.map Numeral.plain),
     (Detail.mk "mean" (Decimal.fixedText 2 (mean rolls))).line]

namespace Calculation

/-- The lines of a calculation. -/
def lines (c : Calculation) : List String :=
  [c.mode.name ++ " " ++ visible c.input, String.ofList (List.replicate 30 '='), c.value]
    ++ c.details.map Detail.line ++ rollLines c.rolls

/-- The record of a calculation. -/
def encode (c : Calculation) : Json :=
  .record
    ([("mode", .text c.mode.name), ("input", .text c.input), ("value", .text c.value),
      ("details", .array (c.details.map Detail.encode))]
      ++ if c.rolls.isEmpty then [] else [("rolls", .array (c.rolls.map .int))])

end Calculation

/-- The form of a report. -/
inductive ReportForm where
  | console
  | json
deriving DecidableEq, Repr

namespace ReportForm

/-- The form with a name. -/
def ofName? : String → Option ReportForm
  | "console" => some .console
  | "json" => some .json
  | _ => none

/-- The report of a calculation. -/
def write (form : ReportForm) (c : Calculation) : String :=
  match form with
  | .console => String.join (c.lines.map (· ++ "\n"))
  | .json => (Json.record [("calculation", c.encode)]).pretty ++ "\n"

end ReportForm

end Tabletop.Calculator
