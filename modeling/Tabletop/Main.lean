import Tabletop.Calculator.CommandLine

/-!
# The calculator as a program

Reads the file of settings, if one is named, and writes the report to standard output or into the file
named for it.
-/

namespace Tabletop.Calculator

/-- How the program is used. -/
def usageText : String :=
  "Usage: dma-calc [--mode MODE] [--to SET] [--simplify] [--rolls N] [--seed N] [--base PRICE]\n"
    ++ "                [--report console|json] [--output FILE] [--config FILE] [--verbose] INPUT\n"

/-- Why a file could not be used. -/
def fileReason : IO.Error → String
  | .noFileOrDirectory _ code _ => "No such file or directory (os error " ++ toString code ++ ")"
  | .permissionDenied _ code _ => "Permission denied (os error " ++ toString code ++ ")"
  | .inappropriateType _ code _ => "Is a directory (os error " ++ toString code ++ ")"
  | e => toString e

/-- Ends with a complaint. -/
def complain (c : Complaint) : IO UInt32 := do
  IO.eprint c.text
  return 1

/-- The contents of the file at `path`, or why there are none; without a path there is nothing. -/
def readSettings : Option String → IO (Except String String)
  | none => return .ok ""
  | some path => do
    try
      return .ok (← IO.FS.readFile path)
    catch e => return .error (fileReason e)

/-- Writes a report where it belongs. -/
def deliver (report : String) : Option String → IO UInt32
  | none => do
    IO.print report
    return 0
  | some path => do
    try
      IO.FS.writeFile path report
      return 0
    catch e => complain (.unmadeFile path (fileReason e))

end Tabletop.Calculator

open Tabletop.Calculator in
/-- The program. -/
def main (arguments : List String) : IO UInt32 := do
  match Arguments.parse arguments with
  | .version =>
    IO.print versionText
    return 0
  | .help =>
    IO.print usageText
    return 0
  | .misused =>
    IO.eprint usageText
    return 2
  | .run o =>
    let config ← readSettings o.config
    let entropy ← IO.rand 0 (Nat.pow 2 64 - 1)
    match o.answer config entropy with
    | .ok report => deliver report o.output
    | .error complaint => complain complaint
