/-!
# Bounded integers

Sheets store whole numbers in 64 bits. Arithmetic is done on unbounded integers and cut back at
named places only:

* **clamp** — the nearest integer that can be stored;
* **clampWide** — the same for the 128-bit intermediate results of price arithmetic;
* **Fits** — the integers that can be stored, exactly those that `clamp` leaves alone.

One integer is negated in 64 bits without being cut back, and what becomes of the least one then
depends on the **Build** of the program.
-/

namespace Tabletop

/-- The greatest integer that can be stored, `2 ^ 63 - 1`. -/
def maxStored : Int := 9223372036854775807

/-- The least integer that can be stored, `-2 ^ 63`. -/
def minStored : Int := -9223372036854775808

/-- An integer that can be stored. -/
def Fits (n : Int) : Prop := minStored ≤ n ∧ n ≤ maxStored

instance (n : Int) : Decidable (Fits n) := inferInstanceAs (Decidable (_ ∧ _))

/-- The stored integer nearest to `n`. -/
def clamp (n : Int) : Int := max minStored (min n maxStored)

/-- The nearest integer to `n` within 128 signed bits. -/
def clampWide (n : Int) : Int :=
  max (-170141183460469231731687303715884105728) (min n 170141183460469231731687303715884105727)

/-- The nearest stored magnitude to `n`. -/
def clampNat (n : Nat) : Nat := min n 9223372036854775807

/-- How a program was built: with checks, so that it stops where a result does not fit, or without
them, so that the result wraps around. -/
inductive Build where
  | checked
  | unchecked
deriving DecidableEq, Repr

/-- The negative of a stored integer, wrapped around: the least one is its own negative. -/
def wrappedNeg (n : Int) : Int := if n = minStored then minStored else -n

/-- The negative of a stored integer in a build. A build with checks stops at the least one. -/
def Build.neg? : Build → Int → Option Int
  | .checked, n => if n = minStored then none else some (-n)
  | .unchecked, n => some (wrappedNeg n)

theorem wrappedNeg_of_ne {n : Int} (h : n ≠ minStored) : wrappedNeg n = -n := if_neg h

/-- Only the negative of the least integer does not fit. -/
theorem fits_neg_iff {n : Int} (h : Fits n) : Fits (-n) ↔ n ≠ minStored := by
  unfold Fits minStored maxStored at *; omega

/-- **Wrapping around stays in range.** -/
theorem fits_wrappedNeg {n : Int} (h : Fits n) : Fits (wrappedNeg n) := by
  unfold wrappedNeg
  split
  · decide
  · rename_i hn
    exact (fits_neg_iff h).mpr hn

/-- **Clamping stays in range.** -/
theorem fits_clamp (n : Int) : Fits (clamp n) := by
  unfold Fits clamp minStored maxStored; omega

/-- **Clamping keeps what fits.** -/
theorem clamp_eq_self {n : Int} (h : Fits n) : clamp n = n := by
  unfold Fits minStored maxStored at h; unfold clamp minStored maxStored; omega

/-- **Clamping is monotone.** -/
theorem clamp_le_clamp {m n : Int} (h : m ≤ n) : clamp m ≤ clamp n := by
  unfold clamp; omega

/-- A lower bound that is not too great to be stored stays one. -/
theorem le_clamp {m n : Int} (hm : m ≤ maxStored) (h : m ≤ n) : m ≤ clamp n := by
  unfold clamp; omega

/-- **Clamping a magnitude** agrees with clamping the integer. -/
theorem clampNat_cast (n : Nat) : ((clampNat n : Nat) : Int) = clamp n := by
  unfold clampNat clamp minStored maxStored; omega

end Tabletop
