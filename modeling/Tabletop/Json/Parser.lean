import Tabletop.Json.Basic

/-!
# Reading JSON

**parse** reads a whole text as one value. Blanks are space, tabulator, line feed and carriage return;
control characters do not stand in strings; numbers have no leading zeros.
-/

namespace Tabletop.Json

/-- A blank between tokens. -/
def isSpace (c : Char) : Bool := c == ' ' || c == '\t' || c == '\n' || c == '\r'

/-- The text without its leading blanks. -/
def skip (cs : List Char) : List Char := cs.dropWhile isSpace

/-- A hexadecimal digit's value. -/
def hexValue? (c : Char) : Option Nat :=
  if c.isDigit then some (c.toNat - 48)
  else if 'a' ≤ c ∧ c ≤ 'f' then some (c.toNat - 87)
  else if 'A' ≤ c ∧ c ≤ 'F' then some (c.toNat - 55)
  else none

/-- A piece of a string: a character, or a code unit by its escape. -/
inductive Piece where
  | char (c : Char)
  | unit (n : Nat)

/-- The character that a short escape stands for. -/
def shortEscape? (c : Char) : Option Char :=
  if c = '\x22' ∨ c = '\x5c' ∨ c = '/' then some c
  else if c = 'b' then some '\x08'
  else if c = 'f' then some '\x0c'
  else if c = 'n' then some '\n'
  else if c = 'r' then some '\r'
  else if c = 't' then some '\t'
  else none

/-- The pieces of a string behind its opening quote, and the text behind its closing one. -/
def pieces : List Char → Option (List Piece × List Char)
  | [] => none
  | '\x22' :: rest => some ([], rest)
  | '\x5c' :: 'u' :: a :: b :: c :: d :: rest => do
    let unit := 4096 * (← hexValue? a) + 256 * (← hexValue? b) + 16 * (← hexValue? c)
      + (← hexValue? d)
    let (ps, behind) ← pieces rest
    some (.unit unit :: ps, behind)
  | '\x5c' :: c :: rest => do
    let escaped ← shortEscape? c
    let (ps, behind) ← pieces rest
    some (.char escaped :: ps, behind)
  | c :: rest =>
    if c.toNat < 0x20 ∨ c = '\x5c' then none
    else do
      let (ps, behind) ← pieces rest
      some (.char c :: ps, behind)

/-- The text of some pieces: a high surrogate takes the low one behind it. -/
def textOf : List Piece → Option (List Char)
  | [] => some []
  | .char c :: ps => (textOf ps).map (c :: ·)
  | .unit n :: ps =>
    if n < 0xD800 ∨ 0xDFFF < n then (textOf ps).map (Char.ofNat n :: ·)
    else if 0xDBFF < n then none
    else
      match ps with
      | .unit m :: rest =>
        if 0xDC00 ≤ m ∧ m ≤ 0xDFFF then
          (textOf rest).map (Char.ofNat (0x10000 + (n - 0xD800) * 1024 + (m - 0xDC00)) :: ·)
        else none
      | _ => none

/-- A string behind its opening quote. -/
def stringBehind (cs : List Char) : Option (Option String × List Char) := do
  let (ps, rest) ← pieces cs
  some ((textOf ps).map String.ofList, rest)

/-- A row of digits, which must not be empty. -/
def digitsAhead (cs : List Char) : Option (List Char × List Char) :=
  let ds := cs.takeWhile Char.isDigit
  if ds = [] then none else some (ds, cs.dropWhile Char.isDigit)

/-- The digits behind a decimal point, if there is one. -/
def fractionAhead : List Char → Option (Option (List Char) × List Char)
  | '.' :: rest => (digitsAhead rest).map fun (ds, behind) => (some ds, behind)
  | cs => some (none, cs)

/-- The exponent, if there is one. -/
def exponentAhead : List Char → Option (Option Int × List Char)
  | [] => some (none, [])
  | c :: rest =>
    if c = 'e' ∨ c = 'E' then
      let (negative, body) := Numeral.splitSign rest
      (digitsAhead body).map fun (ds, behind) => (some (Numeral.ofDigits negative ds), behind)
    else some (none, c :: rest)

/-- A number. -/
def numberAhead (cs : List Char) : Option (JsonNumber × List Char) := do
  let (negative, body) := match cs with
    | '-' :: rest => (true, rest)
    | cs => (false, cs)
  let (whole, rest) ← digitsAhead body
  if whole.head? = some '0' ∧ whole.length > 1 then none
  else
    let (fraction, rest) ← fractionAhead rest
    let (exponent, rest) ← exponentAhead rest
    match fraction, exponent with
    | none, none => some (.integer negative (Numeral.value whole), rest)
    | fraction, exponent =>
      let places := fraction.getD []
      some (.scaled negative (Numeral.value (whole ++ places))
        (exponent.getD 0 - places.length), rest)

/-- What follows a word that stands next. -/
def behindWord (word : String) (cs : List Char) : Option (List Char) :=
  if word.toList.isPrefixOf cs then some (cs.drop word.toList.length) else none

mutual

/-- A value, with as many steps as `fuel` allows. -/
def valueAhead : Nat → List Char → Option (Json × List Char)
  | 0, _ => none
  | fuel + 1, cs =>
    match skip cs with
    | [] => none
    | c :: rest =>
      if c = '\x22' then (stringBehind rest).map fun (s, behind) => (string s, behind)
      else if c = '[' then
        match skip rest with
        | ']' :: behind => some (array [], behind)
        | _ => (itemsAhead fuel rest).map fun (items, behind) => (array items, behind)
      else if c = '\x7b' then
        match skip rest with
        | '\x7d' :: behind => some (object [], behind)
        | _ => (membersAhead fuel rest).map fun (members, behind) => (object members, behind)
      else if c = 'n' then (behindWord "null" (c :: rest)).map fun behind => (null, behind)
      else if c = 't' then (behindWord "true" (c :: rest)).map fun behind => (bool true, behind)
      else if c = 'f' then (behindWord "false" (c :: rest)).map fun behind => (bool false, behind)
      else (numberAhead (c :: rest)).map fun (n, behind) => (number n, behind)

/-- The items up to the end of their array; at least one. -/
def itemsAhead : Nat → List Char → Option (List Json × List Char)
  | 0, _ => none
  | fuel + 1, cs => do
    let (item, rest) ← valueAhead fuel cs
    match skip rest with
    | ',' :: more => do
      let (items, behind) ← itemsAhead fuel more
      some (item :: items, behind)
    | ']' :: behind => some ([item], behind)
    | _ => none

/-- The members up to the end of their object; at least one. -/
def membersAhead : Nat → List Char → Option (List (Option String × Json) × List Char)
  | 0, _ => none
  | fuel + 1, cs =>
    match skip cs with
    | '\x22' :: named => do
      let (name, rest) ← stringBehind named
      match skip rest with
      | ':' :: rest => do
        let (value, rest) ← valueAhead fuel rest
        match skip rest with
        | ',' :: more => do
          let (members, behind) ← membersAhead fuel more
          some ((name, value) :: members, behind)
        | '\x7d' :: behind => some ([(name, value)], behind)
        | _ => none
      | _ => none
    | _ => none

end

/-- Reads a whole text as a value. Of any two steps one takes a character, so that twice the length is
fuel enough. -/
def parse (source : String) : Option Json := do
  let cs := source.toList
  let (value, rest) ← valueAhead (2 * cs.length + 2) cs
  if skip rest = [] then some value else none

end Tabletop.Json
