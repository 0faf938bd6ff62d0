import Tabletop.Json.Basic

/-!
# Writing JSON

**compact** writes a value without blanks, **pretty** with a line for every item and two spaces for
every level. Quotes, backslashes and control characters are escaped, and nothing else.
-/

namespace Tabletop.Json

/-- The hexadecimal digit for `n < 16`. -/
def hexDigit (n : Nat) : Char := if n < 10 then Numeral.digit n else Char.ofNat (87 + n)

/-- A character inside a string. -/
def escapeChar (c : Char) : List Char :=
  if c = '\x22' then ['\x5c', '\x22']
  else if c = '\x5c' then ['\x5c', '\x5c']
  else if c = '\x08' then ['\x5c', 'b']
  else if c = '\x0c' then ['\x5c', 'f']
  else if c = '\n' then ['\x5c', 'n']
  else if c = '\r' then ['\x5c', 'r']
  else if c = '\t' then ['\x5c', 't']
  else if c.toNat < 0x20 then
    ['\x5c', 'u', '0', '0', hexDigit (c.toNat / 16), hexDigit (c.toNat % 16)]
  else [c]

/-- A string with its quotes; one that is no text is written as the replacement character. -/
def quoted (s : Option String) : List Char :=
  '\x22' :: (s.getD "\uFFFD").toList.flatMap escapeChar ++ ['\x22']

/-- A number. -/
def numberText : JsonNumber → List Char
  | .integer negative n => (if negative then ['-'] else []) ++ Numeral.digits n
  | .scaled negative n e =>
    (if negative then ['-'] else []) ++ Numeral.digits n ++ 'e' :: (Numeral.plain e).toList

mutual

/-- A value without blanks, as characters. -/
def write : Json → List Char
  | null => "null".toList
  | bool b => (if b then "true" else "false").toList
  | number n => numberText n
  | string s => quoted s
  | array [] => "[]".toList
  | array (j :: js) => '[' :: j.write ++ writeItems js
  | object [] => "\x7b\x7d".toList
  | object ((name, j) :: js) => '\x7b' :: quoted name ++ ':' :: j.write ++ writeMembers js

/-- The items behind the first one, and the end of their array. -/
def writeItems : List Json → List Char
  | [] => [']']
  | j :: js => ',' :: j.write ++ writeItems js

/-- The members behind the first one, and the end of their object. -/
def writeMembers : List (Option String × Json) → List Char
  | [] => ['\x7d']
  | (name, j) :: js => ',' :: quoted name ++ ':' :: j.write ++ writeMembers js

end

theorem write_number (n : JsonNumber) : (number n).write = numberText n := rfl

theorem write_string (s : Option String) : (string s).write = quoted s := rfl

theorem write_array_cons (j : Json) (js : List Json) :
    (array (j :: js)).write = '[' :: j.write ++ writeItems js := rfl

theorem write_object_cons (name : Option String) (j : Json) (js : List (Option String × Json)) :
    (object ((name, j) :: js)).write =
      '\x7b' :: quoted name ++ ':' :: j.write ++ writeMembers js := rfl

/-- A value without blanks. -/
def compact (j : Json) : String := String.ofList j.write

/-- A new line at a level. -/
def newLine (level : Nat) : List Char := '\n' :: List.replicate (2 * level) ' '

mutual

/-- A value at a level, with a line for every item. -/
def writeLines (level : Nat) : Json → List Char
  | array (j :: js) => '[' :: newLine (level + 1) ++ j.writeLines (level + 1) ++ lineItems level js
  | object ((name, j) :: js) =>
    '\x7b' :: newLine (level + 1) ++ quoted name ++ ": ".toList ++ j.writeLines (level + 1)
      ++ lineMembers level js
  | null => "null".toList
  | bool b => (if b then "true" else "false").toList
  | number n => numberText n
  | string s => quoted s
  | array [] => "[]".toList
  | object [] => "\x7b\x7d".toList

/-- The items behind the first one on lines of their own, and the end of their array. -/
def lineItems (level : Nat) : List Json → List Char
  | [] => newLine level ++ [']']
  | j :: js => ',' :: newLine (level + 1) ++ j.writeLines (level + 1) ++ lineItems level js

/-- The members behind the first one on lines of their own, and the end of their object. -/
def lineMembers (level : Nat) : List (Option String × Json) → List Char
  | [] => newLine level ++ ['\x7d']
  | (name, j) :: js =>
    ',' :: newLine (level + 1) ++ quoted name ++ ": ".toList ++ j.writeLines (level + 1)
      ++ lineMembers level js

end

/-- A value on lines. -/
def pretty (j : Json) : String := String.ofList (j.writeLines 0)

end Tabletop.Json
