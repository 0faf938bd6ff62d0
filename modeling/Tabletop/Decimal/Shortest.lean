import Tabletop.Decimal.Places

/-!
# Shortest decimals

The fewest digits that tell a float from all others: a multiple of the largest power of ten that has
a multiple in the float's interval. Of two such multiples the nearer one is taken, and the larger one
if they are equally near. Numbers are written out, never with an exponent.
-/

namespace Tabletop.Decimal

/-- The power `10 ^ k`, or one if `k` is negative. -/
def tens (k : Int) : Nat := Nat.pow 10 k.toNat

/-- Whether `n * 10 ^ k` lies in the interval of a float. -/
def Binary.admits (b : Binary) (n : Nat) (k : Int) : Bool :=
  let point := n * tens k * b.unit
  let low := b.low * tens (-k)
  let high := b.high * tens (-k)
  if b.closed then low ≤ point ∧ point ≤ high else low < point ∧ point < high

/-- The multiple of `10 ^ k` that stands for a float, if one lies in its interval. -/
def Binary.onGrid? (b : Binary) (k : Int) : Option Nat :=
  let num := b.value * tens (-k)
  let den := b.unit * tens k
  let n := num / den
  match b.admits n k, b.admits (n + 1) k with
  | true, true => some (if 2 * (num % den) < den then n else n + 1)
  | true, false => some n
  | false, true => some (n + 1)
  | false, false => none

/-- The decimal `n * 10 ^ k` of the first grid that has one, from `10 ^ k` on down through `steps`
grids. -/
def Binary.search (b : Binary) : Nat → Int → Nat × Int
  | 0, k => (b.value * tens (-k) / b.unit, k)
  | steps + 1, k =>
    match b.onGrid? k with
    | some n => (n, k)
    | none => b.search steps (k - 1)

/-- The decimal `n * 10 ^ k` with the fewest digits. Every float is a multiple of `10 ^ -1074`, so
the search finds it. -/
def Binary.shortest (b : Binary) : Nat × Int :=
  b.search 1400 (Numeral.digits (b.value / b.unit)).length

/-- The decimal `n * 10 ^ k` written out. -/
def positional (n : Nat) (k : Int) : List Char := withPlaces (-k).toNat (n * tens k)

/-- A float with the fewest digits. -/
def shortestText (f : Float) : String :=
  floatText (fun b => positional b.shortest.1 b.shortest.2) f

end Tabletop.Decimal
