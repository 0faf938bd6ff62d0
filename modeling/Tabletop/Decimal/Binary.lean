/-!
# Binary fractions

A finite float of 64 bits as an exact fraction, together with the interval of the reals that round to
it. The ends of the interval are half-way to the neighbouring floats; they belong to it exactly if the
significand is even.
-/

namespace Tabletop.Decimal

/-- The magnitude `value / unit` of a float, and the ends of its interval in the same unit. -/
structure Binary where
  value : Nat
  unit : Nat
  low : Nat
  high : Nat
  closed : Bool
deriving DecidableEq, Repr

/-- The magnitude with the given exponent field and fraction field. Below a power of two the floats
lie twice as close, so that the interval reaches only half as far down there. -/
def Binary.ofFields (exponent fraction : Nat) : Binary :=
  let significand := if exponent = 0 then fraction else Nat.pow 2 52 + fraction
  let place := max exponent 1
  let scale := Nat.pow 2 (place - 1075)
  let gap := if fraction = 0 ∧ exponent > 1 then 1 else 2
  { value := 4 * significand * scale
    unit := 4 * Nat.pow 2 (1075 - place)
    low := (4 * significand - gap) * scale
    high := (4 * significand + 2) * scale
    closed := significand % 2 = 0 }

/-- Whether the sign bit of a float is set. -/
def signBit (f : Float) : Bool := f.toBits >>> 63 == 1

/-- The exponent field of a float. -/
def exponentField (f : Float) : Nat := f.toBits.toNat / Nat.pow 2 52 % 2048

/-- The fraction field of a float. -/
def fractionField (f : Float) : Nat := f.toBits.toNat % Nat.pow 2 52

/-- The text of a float with its magnitude written by `write`; an infinite float and what is not a
number have names. -/
def floatText (write : Binary → List Char) (f : Float) : String :=
  if exponentField f = 2047 ∧ fractionField f ≠ 0 then "NaN"
  else
    (if signBit f then "-" else "") ++
      if exponentField f = 2047 then "inf"
      else String.ofList (write (.ofFields (exponentField f) (fractionField f)))

end Tabletop.Decimal
