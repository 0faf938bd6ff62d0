import Tabletop.Reader

/-!
# Cursors

A cursor remembers the whole text beside the part not read yet, so that positions, counted in
UTF-8 bytes from the start, can be reported and sought.
-/

namespace Tabletop

/-- A place in a text. -/
structure Cursor where
  text : List Char
  rest : List Char

namespace Cursor

/-- The start of a text. -/
def ofText (text : List Char) : Cursor := ⟨text, text⟩

/-- Bytes in front of the cursor. -/
def position (c : Cursor) : Nat := Text.utf8Size c.text - Text.utf8Size c.rest

/-- The text after its first `n` bytes. -/
def dropBytes : Nat → List Char → List Char
  | 0, cs => cs
  | _ + 1, [] => []
  | n + 1, c :: cs => dropBytes (n + 1 - c.utf8Size) cs

/-- The cursor at a byte position; beyond the end it stops there. -/
def seek (c : Cursor) (n : Nat) : Cursor := { c with rest := dropBytes n c.text }

/-- Lets a reader go on from the cursor. -/
def run {α : Type} (c : Cursor) (r : Reader α) : Option α × Cursor :=
  ((r c.rest).1, { c with rest := (r c.rest).2 })

end Cursor

end Tabletop
