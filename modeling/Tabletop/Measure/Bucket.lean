import Tabletop.Measure.Purse

/-!
# Size buckets

Distances and prices are grouped coarsely: an amount belongs to the first bucket whose bound it does
not exceed, and beyond the last bound to an open bucket.
-/

namespace Tabletop

/-- A bucket: everything up to `num / den` that fits no earlier one. -/
structure Bucket where
  num : Int
  den : Int
  label : String
deriving DecidableEq, Repr

namespace Bucket

/-- Whether an amount is within the bound. -/
def admits (b : Bucket) (amount : Rational) : Bool :=
  (amount.multiplyInt b.den).compareInt b.num ≠ .gt

/-- The label of the first bucket that admits an amount. -/
def labelOf (buckets : List Bucket) (amount : Rational) : String :=
  ((buckets.find? (·.admits amount)).map (·.label)).getD "Infinite"

/-- Buckets of distances, bounded in feet. -/
def distances : List Bucket :=
  [⟨1, 120, "1/10 in"⟩, ⟨1, 48, "1/4 in"⟩, ⟨1, 24, "1/2 in"⟩, ⟨1, 12, "1 in"⟩, ⟨1, 6, "2 in"⟩,
   ⟨1, 4, "3 in"⟩, ⟨1, 3, "4 in"⟩, ⟨5, 12, "5 in"⟩, ⟨5, 6, "10 in"⟩, ⟨1, 1, "1 ft"⟩,
   ⟨5, 1, "5 ft"⟩, ⟨10, 1, "10 ft"⟩, ⟨25, 1, "25 ft"⟩, ⟨50, 1, "50 ft"⟩, ⟨100, 1, "100 ft"⟩,
   ⟨250, 1, "250 ft"⟩, ⟨500, 1, "500 ft"⟩, ⟨1000, 1, "1000 ft"⟩, ⟨5280, 1, "1 ml"⟩,
   ⟨10560, 1, "2 ml"⟩, ⟨26400, 1, "5 ml"⟩, ⟨52800, 1, "10 ml"⟩, ⟨132000, 1, "25 ml"⟩,
   ⟨264000, 1, "50 ml"⟩, ⟨528000, 1, "100 ml"⟩]

/-- Buckets of prices, bounded in copper pieces. -/
def prices : List Bucket :=
  [⟨1, 1, "1 cp"⟩, ⟨10, 1, "1 sp"⟩, ⟨100, 1, "1 gp"⟩, ⟨1000, 1, "10 gp"⟩, ⟨10000, 1, "100 gp"⟩,
   ⟨100000, 1, "1000 gp"⟩, ⟨200000, 1, "2000 gp"⟩, ⟨400000, 1, "4000 gp"⟩,
   ⟨10000000, 1, "100000 gp"⟩]

end Bucket

/-- The bucket of a distance. -/
def Distance.group (m : Distance) : String :=
  if m.isDefined then Bucket.labelOf Bucket.distances m.inFeet else undefinedText

/-- The bucket of a price. -/
def Money.group (m : Money) : String :=
  if m.isDefined then Bucket.labelOf Bucket.prices (m.inGold.multiplyInt 100) else undefinedText

end Tabletop
