import Tabletop.Bounds
import Tabletop.Text.Blank
import Tabletop.Text.Word
import Tabletop.Text.Printable
import Tabletop.Cursor
import Tabletop.Rational.Text
import Tabletop.Dice.Text
import Tabletop.Random.DiceBag
import Tabletop.Measure.Text
import Tabletop.Measure.Bucket
import Tabletop.Modifier.Text
import Tabletop.Modifier.Number
import Tabletop.Value.Basic
import Tabletop.Expression.Text
import Tabletop.Expression.Pricing
import Tabletop.Sheet.Combination
import Tabletop.Comment.Basic
import Tabletop.Json.Parser
import Tabletop.Json.Printer
import Tabletop.Json.Fields
import Tabletop.Record.Measures
import Tabletop.Record.Adjustments
import Tabletop.Record.Values
import Tabletop.Settings
import Tabletop.Text.Escaped
import Tabletop.Decimal.Shortest
import Tabletop.Calculator.CommandLine
import Tabletop.Main
import Tabletop.Proofs.Rational.Exact
import Tabletop.Proofs.Rational.Canonical
import Tabletop.Proofs.Rational.Operation
import Tabletop.Proofs.Rational.Obtained
import Tabletop.Proofs.Rational.Cut
import Tabletop.Proofs.Text.Numeral
import Tabletop.Proofs.Text.Reading
import Tabletop.Proofs.Text.Place
import Tabletop.Proofs.Rational.Notation
import Tabletop.Proofs.Json.ReadBack
import Tabletop.Proofs.Json.Fields
import Tabletop.Proofs.Measure.Checked
import Tabletop.Proofs.Measure.Amount
import Tabletop.Proofs.Measure.Arithmetic
import Tabletop.Proofs.Measure.Purse
import Tabletop.Proofs.Measure.Read
import Tabletop.Proofs.Measure.Spelling
import Tabletop.Proofs.Measure.Told
import Tabletop.Proofs.Measure.ReadBack
import Tabletop.Proofs.Measure.Standard
import Tabletop.Proofs.Measure.Printed
import Tabletop.Proofs.Measure.AnyOrder
import Tabletop.Proofs.Measure.Defined
import Tabletop.Proofs.Expression.Checked
import Tabletop.Proofs.Expression.Cost
import Tabletop.Proofs.Expression.Order
import Tabletop.Proofs.Expression.Price
import Tabletop.Proofs.Sheet.History
import Tabletop.Proofs.Modifier.Stacking
import Tabletop.Proofs.Modifier.Accumulated
import Tabletop.Proofs.Sheet.Collected
import Tabletop.Proofs.Sheet.Total
import Tabletop.Proofs.Sheet.Gathered
import Tabletop.Proofs.Sheet.Inherited
import Tabletop.Proofs.Sheet.Merged
import Tabletop.Proofs.Sheet.Undefined
import Tabletop.Proofs.Value.Sum
import Tabletop.Proofs.Sheet.Partition
import Tabletop.Proofs.Sheet.Numbers
import Tabletop.Proofs.Value.Text
import Tabletop.Proofs.Record.Numbers
import Tabletop.Proofs.Record.Adjustments
import Tabletop.Proofs.Record.Measures
import Tabletop.Proofs.Record.Lossless
import Tabletop.Proofs.Record.Values
import Tabletop.Proofs.Dice.Drawn
import Tabletop.Proofs.Dice.Bounds
import Tabletop.Proofs.Dice.ReadBack
import Tabletop.Proofs.Dice.Sum
import Tabletop.Proofs.Dice.Grammar
import Tabletop.Proofs.Measure.Greedy
import Tabletop.Proofs.Calculator.Requested
import Tabletop.Proofs.Text.Lines
import Tabletop.Proofs.Comment.Agreement
import Tabletop.Proofs.Rational.Grammar
import Tabletop.Proofs.Modifier.Range
import Tabletop.Proofs.Rational.ReadBack
import Tabletop.Proofs.Text.Marks
import Tabletop.Proofs.Modifier.ReadBack
import Tabletop.Proofs.Expression.Grammar
import Tabletop.Proofs.Expression.ReadBack
import Tabletop.Proofs.Expression.Brackets
import Tabletop.Proofs.Expression.Replacement
import Tabletop.Proofs.Rational.Order
import Tabletop.Proofs.Measure.Order
import Tabletop.Proofs.Value.Order
import Tabletop.Proofs.Sheet.Extremes
import Tabletop.Proofs.Comment.Reading
import Tabletop.Proofs.Text.Substitution
import Tabletop.Proofs.Comment.Empties
import Tabletop.Proofs.Comment.StarterRule
import Tabletop.Proofs.Comment.Rulers
import Tabletop.Proofs.Comment.Layout
import Tabletop.Proofs.Comment.Settled
import Tabletop.Proofs.Comment.Kept
import Tabletop.Proofs.Measure.Accepted
import Tabletop.Proofs.Measure.Reachable
import Tabletop.Proofs.Settings.Valid
import Tabletop.Proofs.Measure.Transfers
import Tabletop.Proofs.Measure.Buckets
