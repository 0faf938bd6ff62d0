import Tabletop.Bounds

/-!
# Numerals

Whole numbers in decimal notation.

* **digits** writes a magnitude without leading zeros, **value** reads digits back;
* **signed** and **plain** write an integer with a sign always, or only when it is negative;
* **int?** and **nat?** read a whole text as a stored integer or a bounded magnitude.

Digits are the ten of ASCII.
-/

namespace Tabletop.Numeral

/-- The digit for `n < 10`. -/
def digit (n : Nat) : Char := Char.ofNat (48 + n)

/-- The decimal digits of `n`, most significant first. -/
def digits (n : Nat) : List Char :=
  if n < 10 then [digit n] else digits (n / 10) ++ [digit (n % 10)]

/-- The number that a row of digits stands for. -/
def value (cs : List Char) : Nat := cs.foldl (fun n c => 10 * n + (c.toNat - 48)) 0

/-- The numeral of a magnitude. -/
def natural (n : Nat) : String := String.ofList (digits n)

/-- The numeral of an integer, signed only when negative. -/
def plain (n : Int) : String := if n < 0 then "-" ++ natural n.natAbs else natural n.natAbs

/-- The numeral of an integer, always signed. -/
def signed (n : Int) : String := if n < 0 then "-" ++ natural n.natAbs else "+" ++ natural n.natAbs

/-- Takes a leading sign off; the flag tells whether it was a minus. -/
def splitSign : List Char → Bool × List Char
  | '-' :: cs => (true, cs)
  | '+' :: cs => (false, cs)
  | cs => (false, cs)

/-- The integer with the given sign and digits. -/
def ofDigits (negative : Bool) (cs : List Char) : Int :=
  if negative then -(value cs : Int) else value cs

/-- Reads a whole text as an optionally signed integer that can be stored. -/
def int? (cs : List Char) : Option Int :=
  let (negative, ds) := splitSign cs
  if ds ≠ [] ∧ ds.all Char.isDigit ∧ Fits (ofDigits negative ds) then some (ofDigits negative ds)
  else none

/-- Reads a whole text as a magnitude of at most `most`, with an optional plus. -/
def nat? (most : Nat) (cs : List Char) : Option Nat :=
  let ds := match cs with
    | '+' :: rest => rest
    | _ => cs
  if ds ≠ [] ∧ ds.all Char.isDigit ∧ value ds ≤ most then some (value ds) else none

end Tabletop.Numeral
