import Tabletop.Text.Ranges

/-!
# Blank characters

The Unicode property White_Space.
-/

namespace Tabletop.Text

/-- The ranges of White_Space. -/
def blankRanges : Ranges :=
  [(0x9, 0xd), (0x20, 0x20), (0x85, 0x85), (0xa0, 0xa0), (0x1680, 0x1680), (0x2000, 0x200a),
  (0x2028, 0x2029), (0x202f, 0x202f), (0x205f, 0x205f), (0x3000, 0x3000)]

/-- A blank: white space of any script. -/
def isBlank (c : Char) : Bool := blankRanges.has c

end Tabletop.Text
