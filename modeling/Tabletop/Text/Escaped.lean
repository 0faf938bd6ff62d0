import Tabletop.Text.Printable

/-!
# Escaped text

A text made visible on one line: control characters, quotes and the backslash are escaped, and so is
every character without a glyph of its own. A mark that extends the character before it is escaped
only at the start, where there is none.
-/

namespace Tabletop.Text

/-- The escape of a character by its hexadecimal code. -/
def codeEscape (c : Char) : List Char := "\\u\x7b".toList ++ Nat.toDigits 16 c.toNat ++ ['\x7d']

/-- A character made visible. -/
def escapeChar (c : Char) : List Char :=
  if c = '\x00' then "\\0".toList
  else if c = '\t' then "\\t".toList
  else if c = '\r' then "\\r".toList
  else if c = '\n' then "\\n".toList
  else if c = '\'' ∨ c = '"' ∨ c = '\\' then ['\\', c]
  else if isPrintable c then [c]
  else codeEscape c

/-- A text made visible. -/
def escaped : List Char → List Char
  | [] => []
  | c :: cs => (if isExtending c then codeEscape c else escapeChar c) ++ cs.flatMap escapeChar

end Tabletop.Text
