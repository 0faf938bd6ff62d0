import Tabletop.Measure.Named

/-!
# Purses

Money as coins of the standard currency. **addCoin** puts coins of one kind in or takes them out; it
refuses to take more coins of a kind than the purse holds, and never changes the other coins.
-/

namespace Tabletop

/-- An amount of money. -/
abbrev Money := Measure (.standard .money)

/-- The standard coins, largest first. -/
inductive Coin where
  | platinum
  | gold
  | silver
  | copper
deriving DecidableEq, Repr

namespace Coin

/-- All coins. -/
def all : List Coin := [.platinum, .gold, .silver, .copper]

/-- The slot that a coin has in a purse. -/
def slot : Coin → Nat
  | .platinum => 0
  | .gold => 1
  | .silver => 2
  | .copper => 3

/-- The abbreviation of a coin. -/
def name : Coin → String
  | .platinum => "pp"
  | .gold => "gp"
  | .silver => "sp"
  | .copper => "cp"

/-- The coin with an abbreviation. -/
def ofName? (name : String) : Option Coin := all.find? fun coin => coin.name == name

end Coin

namespace Money

/-- A number of coins of every kind. -/
def standard (copper silver gold platinum : Int) : Money :=
  ⟨some 0, [platinum, gold, silver, copper].map fun n => some (.ofInt n), Kind.level (.standard .money)⟩

/-- A number of coins of one kind. -/
def coins (coin : Coin) (n : Int) : Money := .single _ 0 coin.slot (.ofInt n)

/-- A number of gold pieces. -/
def gold (n : Int) : Money := coins .gold n

/-- The amount held in one kind of coin. -/
def amount (m : Money) (coin : Coin) : Rational := (m.get coin.slot).getD .zero

/-- The total in gold pieces. -/
def inGold (m : Money) : Rational := m.valueIn 0

/-- The purse with `n` coins more, or fewer if `n` is negative. -/
def addCoin (m : Money) (coin : Coin) (n : Int) : Except Failure Money := do
  let purse : Money ← if m.isDefined then m.toSet 0 false else .ok (standard 0 0 0 0)
  let held := Money.amount purse coin
  let updated := held.addInt n
  if updated.negative then .error (.insufficientFunds (-n) coin.name held.text)
  else return (← Measure.ofSlots _ 0 (purse.slots.set coin.slot (some updated))).withLevel purse.level

end Money

end Tabletop
