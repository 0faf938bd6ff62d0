import Mathlib.Algebra.Field.Rat
import Mathlib.Algebra.Order.Field.Basic
import Mathlib.Algebra.Order.Ring.Rat
import Mathlib.Data.Rat.Lemmas
import Mathlib.Tactic.FieldSimp
import Tabletop.Rational.Basic

/-!
# Exact arithmetic

Rationals are stored in 64 bits, so a result may be cut. Here the operations are read as functions
of the numbers meant, and the cut is made visible:

* **ofRat** is the stored form of a number, **Storable** says that the number survives being stored;
* every operation on defined values is **ofRat** of the exact result of that operation
  (`add_eq_ofRat`, `multiply_eq_ofRat`, `divideInt_eq_ofRat`, …), cut or not;
* **Lossless** is said of the exact results of the steps of a computation: none of them is cut. A
  computation of several steps is then exact as a whole (`toRat_scaleBy`);
* **Canonical** values are told apart by the numbers they mean (`Canonical.ext`), so that equations
  between numbers become equations between values.
-/

namespace Tabletop

namespace Rational

/-! ## The stored form of a number -/

/-- A number that is stored without loss: whole part and denominator fit. -/
def Storable (q : ℚ) : Prop := Fits ((q.num.natAbs / q.den : ℕ) : ℤ) ∧ Fits (q.den : ℤ)

instance (q : ℚ) : Decidable (Storable q) := inferInstanceAs (Decidable (_ ∧ _))

/-- The stored form of a number. -/
def ofRat (q : ℚ) : Rational := reduced q.num q.den

/-- A magnitude that fits is stored as it is. -/
theorem clampNat_eq_self {n : ℕ} (h : Fits (n : ℤ)) : clampNat n = n := by
  unfold Fits maxStored at h
  unfold clampNat
  omega

/-- A quotient is negative exactly if it is not zero and one of its parts is negative. -/
theorem num_div_neg_iff {n d : ℤ} (hd : d ≠ 0) :
    (n / d : ℚ).num < 0 ↔ n ≠ 0 ∧ (n < 0 ↔ ¬ d < 0) := by
  rw [Rat.num_neg, div_neg_iff]
  simp only [Int.cast_pos, Int.cast_lt_zero]
  omega

/-- The numerator of a quotient in lowest terms, by the divisor that both numbers have in common. -/
theorem num_div_natAbs (n : ℤ) {d : ℤ} (hd : d ≠ 0) :
    (n / d : ℚ).num.natAbs = n.natAbs / Nat.gcd n.natAbs d.natAbs := by
  have hdvd : (d.gcd n : ℤ) ∣ d.sign * n := Dvd.dvd.mul_left (Int.gcd_dvd_right d n) _
  have hsign : (d.sign * n).natAbs = n.natAbs := by
    rw [Int.natAbs_mul, Int.natAbs_sign_of_ne_zero hd, Nat.one_mul]
  rw [← Rat.divInt_eq_div, Rat.num_divInt, Int.natAbs_ediv_of_dvd hdvd, hsign,
    Int.natAbs_natCast, Int.gcd_comm]
  rfl

/-- The denominator of a quotient in lowest terms, by the same common divisor. -/
theorem den_div (n : ℤ) {d : ℤ} (hd : d ≠ 0) :
    (n / d : ℚ).den = d.natAbs / Nat.gcd n.natAbs d.natAbs := by
  rw [← Rat.divInt_eq_div, Rat.den_divInt, if_neg hd, Int.gcd_comm]
  rfl

/-- A fraction in any form is stored like the number it denotes. -/
theorem reduced_eq_ofRat (n : ℤ) {d : ℤ} (hd : d ≠ 0) : reduced n d = ofRat (n / d : ℚ) := by
  have hcop : Nat.gcd (n / d : ℚ).num.natAbs ((n / d : ℚ).den : ℤ).natAbs = 1 := (n / d : ℚ).reduced
  have hden : ((n / d : ℚ).den : ℤ) ≠ 0 := by exact_mod_cast (n / d : ℚ).den_nz
  -- both forms have the same sign, and their magnitudes differ by the common divisor only
  have hzero : (n / d : ℚ).num ≠ 0 ↔ n ≠ 0 := by
    rw [Ne, Rat.num_eq_zero, div_eq_zero_iff]
    simp [hd]
  have hsign : (decide (n ≠ 0) && (decide (n < 0) != decide (d < 0))) =
      (decide ((n / d : ℚ).num ≠ 0) &&
        (decide ((n / d : ℚ).num < 0) != decide (((n / d : ℚ).den : ℤ) < 0))) := by
    have hpos : ¬ ((n / d : ℚ).den : ℤ) < 0 := by omega
    simp only [hzero, num_div_neg_iff hd, hpos]
    by_cases hn : n < 0 <;> by_cases hd' : d < 0 <;> simp [hn, hd']
  unfold ofRat reduced
  rw [if_neg hd, if_neg hden, hcop, hsign]
  simp only [Nat.div_one, Int.natAbs_natCast, num_div_natAbs n hd, den_div n hd]

/-- The number meant is the improper fraction. -/
theorem toRat_eq_div (r : Rational) : r.toRat = (r.numerator / r.den : ℚ) :=
  Rat.mkRat_eq_div _ _

theorem storable_zero : Storable 0 := by decide

/-- A number and its negative have one magnitude, and it is the magnitude that is stored. -/
@[simp] theorem storable_neg {q : ℚ} : Storable (-q) ↔ Storable q := by
  rw [Storable, Storable, Rat.num_neg_eq_neg_num, Rat.den_neg_eq_den, Int.natAbs_neg]

@[simp] theorem toRat_undefined : undefined.toRat = 0 := rfl

@[simp] theorem isDefined_undefined : undefined.isDefined = false := rfl

theorem isDefined_iff {r : Rational} : r.isDefined = true ↔ r.den ≠ 0 := by
  simp [isDefined]

/-- What is stored for a number is defined, even where it is cut. -/
@[simp] theorem isDefined_ofRat (q : ℚ) : (ofRat q).isDefined = true := by
  have hden : (q.den : ℤ) ≠ 0 := by exact_mod_cast q.den_nz
  have hcop : Nat.gcd q.num.natAbs (q.den : ℤ).natAbs = 1 := q.reduced
  rw [isDefined_iff, ofRat, reduced, if_neg hden, hcop]
  simp only [Nat.div_one, Int.natAbs_natCast, clampNat]
  omega

theorem negative_ofRat (q : ℚ) : (ofRat q).negative = decide (q.num < 0) := by
  have hden : (q.den : ℤ) ≠ 0 := by exact_mod_cast q.den_nz
  have hpos : ¬ (q.den : ℤ) < 0 := by omega
  rw [ofRat, reduced, if_neg hden]
  by_cases hneg : q.num < 0
  · simp [hneg, hneg.ne, hpos]
  · simp [hneg, hpos]

/-- **A storable number is kept** by storing it. -/
theorem toRat_ofRat {q : ℚ} (h : Storable q) : (ofRat q).toRat = q := by
  obtain ⟨hwhole, hfits⟩ := h
  have hden : (q.den : ℤ) ≠ 0 := by exact_mod_cast q.den_nz
  have hcop : Nat.gcd q.num.natAbs (q.den : ℤ).natAbs = 1 := q.reduced
  have hlt : q.num.natAbs % q.den < q.den := Nat.mod_lt _ q.den_pos
  have hpart : clampNat (q.num.natAbs % q.den) = q.num.natAbs % q.den := by
    apply clampNat_eq_self
    unfold Fits minStored maxStored at *
    omega
  -- whole part and remainder put together give the numerator back
  have hnumer : (ofRat q).numerator = q.num := by
    have hmagnitude : (((q.num.natAbs / q.den : ℕ) : ℤ) * (q.den : ℤ) +
        ((q.num.natAbs % q.den : ℕ) : ℤ)) = (q.num.natAbs : ℤ) := by
      exact_mod_cast Nat.div_add_mod' q.num.natAbs q.den
    rw [numerator, negative_ofRat, ofRat, reduced, if_neg hden, hcop]
    simp only [Nat.div_one, Int.natAbs_natCast, clampNat_eq_self hwhole, clampNat_eq_self hfits,
      hpart, hmagnitude, decide_eq_true_eq]
    split <;> omega
  have hdenom : (ofRat q).den = q.den := by
    rw [ofRat, reduced, if_neg hden, hcop]
    simp only [Nat.div_one, Int.natAbs_natCast, clampNat_eq_self hfits]
  rw [toRat, hnumer, hdenom, Rat.mkRat_self]

theorem toRat_eq_zero_of_undefined {r : Rational} (h : r.isDefined = false) : r.toRat = 0 := by
  have hden : r.den = 0 := by simpa [isDefined] using h
  rw [toRat_eq_div, hden, Nat.cast_zero, div_zero]

/-! ## The operations as functions of the numbers meant -/

/-- **The sum** of defined values is what is stored for the exact sum. -/
theorem add_eq_ofRat {r s : Rational} (hr : r.isDefined) (hs : s.isDefined) :
    r.add s = ofRat (r.toRat + s.toRat) := by
  have hrd : (r.den : ℚ) ≠ 0 := by exact_mod_cast isDefined_iff.mp hr
  have hsd : (s.den : ℚ) ≠ 0 := by exact_mod_cast isDefined_iff.mp hs
  have hd : (r.den * s.den : ℤ) ≠ 0 := by exact_mod_cast mul_ne_zero hrd hsd
  simp only [add, hr, hs, Bool.not_true, Bool.false_eq_true, if_false]
  rw [reduced_eq_ofRat _ hd, toRat_eq_div, toRat_eq_div]
  push_cast
  congr 1
  field_simp

/-- The opposite of a defined value is what is stored for the opposite number. -/
theorem negate_eq_ofRat {r : Rational} (hr : r.isDefined) : r.negate = ofRat (-r.toRat) := by
  have hd : (r.den : ℤ) ≠ 0 := by exact_mod_cast isDefined_iff.mp hr
  rw [negate, if_pos hr, reduced_eq_ofRat _ hd, toRat_eq_div]
  push_cast
  rw [neg_div]

/-- **The product** of defined values is what is stored for the exact product. -/
theorem multiply_eq_ofRat {r s : Rational} (hr : r.isDefined) (hs : s.isDefined) :
    r.multiply s = ofRat (r.toRat * s.toRat) := by
  have hrd : (r.den : ℚ) ≠ 0 := by exact_mod_cast isDefined_iff.mp hr
  have hsd : (s.den : ℚ) ≠ 0 := by exact_mod_cast isDefined_iff.mp hs
  have hd : (r.den * s.den : ℤ) ≠ 0 := by exact_mod_cast mul_ne_zero hrd hsd
  rw [multiply, hr, hs, Bool.and_true, if_pos rfl, reduced_eq_ofRat _ hd, toRat_eq_div,
    toRat_eq_div]
  push_cast
  congr 1
  field_simp

/-- The product with an integer is what is stored for the exact product. -/
theorem multiplyInt_eq_ofRat {r : Rational} (hr : r.isDefined) (n : ℤ) :
    r.multiplyInt n = ofRat (r.toRat * n) := by
  have hd : (r.den : ℤ) ≠ 0 := by exact_mod_cast isDefined_iff.mp hr
  rw [multiplyInt, if_pos hr, reduced_eq_ofRat _ hd, toRat_eq_div]
  push_cast
  rw [div_mul_eq_mul_div]

/-- The quotient by an integer other than zero is what is stored for the exact quotient. -/
theorem divideInt_eq_ofRat {r : Rational} (hr : r.isDefined) {n : ℤ} (hn : n ≠ 0) :
    r.divideInt n = .ok (ofRat (r.toRat / n)) := by
  have hrd : (r.den : ℤ) ≠ 0 := by exact_mod_cast isDefined_iff.mp hr
  rw [divideInt, if_neg hn, if_pos hr, reduced_eq_ofRat _ (mul_ne_zero hrd hn), toRat_eq_div]
  push_cast
  rw [div_div]

theorem ofInt_eq_ofRat (n : ℤ) : ofInt n = ofRat n := by
  rw [ofInt, reduced_eq_ofRat n one_ne_zero, Int.cast_one, div_one]

/-- Only zero and the undefined value have no numerator. -/
theorem numerator_ne_zero {r : Rational} (hr : r.isDefined) (hnull : r.isNull = false) :
    r.numerator ≠ 0 := by
  have hden : r.den ≠ 0 := isDefined_iff.mp hr
  have hparts : ¬ (r.whole = 0 ∧ r.num = 0) := by simpa [isNull, hr] using hnull
  have hmagnitude : (r.whole : ℤ) * r.den + r.num ≠ 0 := by
    intro h
    have hnat : r.whole * r.den + r.num = 0 := by exact_mod_cast h
    have hwhole : r.whole * r.den = 0 := by omega
    exact hparts ⟨(Nat.mul_eq_zero.mp hwhole).resolve_right hden, by omega⟩
  unfold numerator
  simp only
  split <;> omega

/-- **The quotient** of defined values is what is stored for the exact quotient, if the divisor is
not zero. -/
theorem divide_eq_ofRat {r s : Rational} (hr : r.isDefined) (hs : s.isDefined)
    (hnull : s.isNull = false) : r.divide s = .ok (ofRat (r.toRat / s.toRat)) := by
  have hrd : (r.den : ℤ) ≠ 0 := by exact_mod_cast isDefined_iff.mp hr
  have hsn : s.numerator ≠ 0 := numerator_ne_zero hs hnull
  have hsd : (s.den : ℚ) ≠ 0 := by exact_mod_cast isDefined_iff.mp hs
  rw [divide, hnull, if_neg Bool.false_ne_true, hr, hs, Bool.and_true, if_pos rfl,
    reduced_eq_ofRat _ (mul_ne_zero hrd hsn), toRat_eq_div, toRat_eq_div]
  push_cast
  congr 2
  field_simp

/-! ## Computations in which nothing is cut -/

/-- No step of a computation is cut, where the steps have these exact results. -/
def Lossless (steps : List ℚ) : Prop := ∀ q ∈ steps, Storable q

instance (steps : List ℚ) : Decidable (Lossless steps) := inferInstanceAs (Decidable (∀ _ ∈ _, _))

@[simp] theorem lossless_cons {q : ℚ} {steps : List ℚ} :
    Lossless (q :: steps) ↔ Storable q ∧ Lossless steps := List.forall_mem_cons

@[simp] theorem lossless_append {s t : List ℚ} : Lossless (s ++ t) ↔ Lossless s ∧ Lossless t :=
  List.forall_mem_append

/-- The exact results of the steps of scaling by `n / d`. -/
def scaleSteps (r : Rational) (n d : ℤ) : List ℚ := [r.toRat * n, r.toRat * n / d]

/-- A sum is undefined only if both operands are. -/
theorem isDefined_add (r s : Rational) : (r.add s).isDefined = (r.isDefined || s.isDefined) := by
  cases hr : r.isDefined
  · simp [add, hr]
  · cases hs : s.isDefined
    · simp [add, hr, hs]
    · simp [add_eq_ofRat hr hs]

/-- A sum that can be stored is exact, for an undefined operand counts as zero. -/
theorem toRat_add {r s : Rational} (h : Storable (r.toRat + s.toRat)) :
    (r.add s).toRat = r.toRat + s.toRat := by
  cases hr : r.isDefined
  · simp [add, hr, toRat_eq_zero_of_undefined hr]
  · cases hs : s.isDefined
    · simp [add, hr, hs, toRat_eq_zero_of_undefined hs]
    · rw [add_eq_ofRat hr hs, toRat_ofRat h]

@[simp] theorem isDefined_negate (r : Rational) : r.negate.isDefined = r.isDefined := by
  cases hr : r.isDefined
  · simp [negate, hr]
  · simp [negate_eq_ofRat hr]

/-- The opposite is exact if it can be stored. -/
theorem toRat_negate {r : Rational} (h : Storable (-r.toRat)) : r.negate.toRat = -r.toRat := by
  cases hr : r.isDefined
  · simp [negate, hr, toRat_eq_zero_of_undefined hr]
  · rw [negate_eq_ofRat hr, toRat_ofRat h]

/-- The exact results of the steps of a subtraction. -/
def subtractSteps (r s : Rational) : List ℚ := [-s.toRat, r.toRat - s.toRat]

/-- A difference is exact if neither the opposite operand nor the result is cut. -/
theorem toRat_subtract {r s : Rational} (h : Lossless (r.subtractSteps s)) :
    (r.subtract s).toRat = r.toRat - s.toRat := by
  obtain ⟨hneg, hsub, -⟩ := by simpa only [subtractSteps, lossless_cons] using h
  rw [sub_eq_add_neg, ← toRat_negate hneg] at hsub
  rw [subtract, toRat_add hsub, toRat_negate hneg, sub_eq_add_neg]

theorem isDefined_multiply (r s : Rational) :
    (r.multiply s).isDefined = (r.isDefined && s.isDefined) := by
  cases h : r.isDefined && s.isDefined with
  | false => rw [multiply, h, if_neg Bool.false_ne_true, isDefined_undefined]
  | true =>
    obtain ⟨hr, hs⟩ := Bool.and_eq_true_iff.mp h
    rw [multiply_eq_ofRat hr hs, isDefined_ofRat]

/-- A product by a defined value is exact if it can be stored. -/
theorem toRat_multiply {r s : Rational} (hs : s.isDefined) (h : Storable (r.toRat * s.toRat)) :
    (r.multiply s).toRat = r.toRat * s.toRat := by
  cases hr : r.isDefined
  · simp [multiply, hr, toRat_eq_zero_of_undefined hr]
  · rw [multiply_eq_ofRat hr hs, toRat_ofRat h]

@[simp] theorem toRat_zero : zero.toRat = 0 := rfl

/-- Scaling cuts twice, at the product and at the quotient; if the product can be stored, it is the
quotient that is stored. -/
theorem scaleBy_eq_ofRat {r : Rational} (hr : r.isDefined) (n : ℤ) {d : ℤ} (hd : d ≠ 0)
    (h : Storable (r.toRat * n)) : r.scaleBy n d = ofRat (r.toRat * n / d) := by
  rw [scaleBy, multiplyInt_eq_ofRat hr, divideInt_eq_ofRat (isDefined_ofRat _) hd]
  simp only [toRat_ofRat h]

theorem scaleBy_of_undefined {r : Rational} (hr : r.isDefined = false) (n : ℤ) {d : ℤ}
    (hd : d ≠ 0) : r.scaleBy n d = r := by
  simp [scaleBy, multiplyInt, divideInt, hr, hd]

/-- Scaling by a proper ratio neither makes a value nor loses one. -/
theorem isDefined_scaleBy (r : Rational) (n : ℤ) {d : ℤ} (hd : d ≠ 0) :
    (r.scaleBy n d).isDefined = r.isDefined := by
  cases hr : r.isDefined
  · rw [scaleBy_of_undefined hr n hd, hr]
  · rw [scaleBy, multiplyInt_eq_ofRat hr, divideInt_eq_ofRat (isDefined_ofRat _) hd]
    simp only [isDefined_ofRat]

/-- **Scaling is exact** where no step is cut; the undefined value counts as zero. -/
theorem toRat_scaleBy {r : Rational} {n d : ℤ} (hd : d ≠ 0) (h : Lossless (r.scaleSteps n d)) :
    (r.scaleBy n d).toRat = r.toRat * n / d := by
  obtain ⟨hmul, hdiv, -⟩ := by simpa only [scaleSteps, lossless_cons] using h
  cases hr : r.isDefined
  · rw [scaleBy_of_undefined hr n hd, toRat_eq_zero_of_undefined hr, zero_mul, zero_div]
  · rw [scaleBy_eq_ofRat hr n hd hmul, toRat_ofRat hdiv]

/-! ## Canonical values -/

/-- The value is undefined or the stored form of the number it means. -/
def Canonical (r : Rational) : Prop := r = undefined ∨ r = ofRat r.toRat

theorem canonical_undefined : Canonical undefined := .inl rfl

/-- A number that can be stored is stored canonically. -/
theorem canonical_ofRat {q : ℚ} (h : Storable q) : Canonical (ofRat q) := by
  right
  rw [toRat_ofRat h]

/-- Canonical values are told apart by what they mean. -/
theorem Canonical.ext {r s : Rational} (hr : r.Canonical) (hs : s.Canonical)
    (hdef : r.isDefined = s.isDefined) (h : r.toRat = s.toRat) : r = s := by
  rcases hr with rfl | hr
  · rcases hs with rfl | hs
    · rfl
    · rw [hs, isDefined_ofRat] at hdef
      cases hdef
  · rcases hs with rfl | hs
    · rw [hr, isDefined_ofRat] at hdef
      cases hdef
    · rw [hr, hs, h]

/-- **Sums stay canonical** if they can be stored. -/
theorem Canonical.add {r s : Rational} (hr : r.Canonical) (hs : s.Canonical)
    (h : Storable (r.toRat + s.toRat)) : (r.add s).Canonical := by
  cases hrd : r.isDefined with
  | false => simpa [Rational.add, hrd] using hs
  | true =>
    cases hsd : s.isDefined with
    | false => simpa [Rational.add, hrd, hsd] using hr
    | true =>
      rw [add_eq_ofRat hrd hsd]
      exact canonical_ofRat h

theorem Canonical.negate {r : Rational} (hr : r.Canonical) (h : Storable (-r.toRat)) :
    r.negate.Canonical := by
  cases hrd : r.isDefined with
  | false => simpa [Rational.negate, hrd] using hr
  | true =>
    rw [negate_eq_ofRat hrd]
    exact canonical_ofRat h

/-- A product that can be stored is canonical, whatever its operands are. -/
theorem canonical_multiply {r s : Rational} (h : Storable (r.toRat * s.toRat)) :
    (r.multiply s).Canonical := by
  cases hdef : r.isDefined && s.isDefined with
  | false => exact .inl (by rw [multiply, hdef, if_neg Bool.false_ne_true])
  | true =>
    obtain ⟨hr, hs⟩ := Bool.and_eq_true_iff.mp hdef
    rw [multiply_eq_ofRat hr hs]
    exact canonical_ofRat h

/-- Nothing but zero fails to divide. -/
theorem divide_eq_ok (r : Rational) {s : Rational} (hs : s.isDefined) (hnull : s.isNull = false) :
    ∃ q, r.divide s = .ok q ∧ q.isDefined = r.isDefined ∧
      (Storable (r.toRat / s.toRat) → q.Canonical ∧ q.toRat = r.toRat / s.toRat) := by
  cases hr : r.isDefined with
  | false =>
    refine ⟨undefined, ?_, rfl, fun _ => ⟨canonical_undefined, ?_⟩⟩
    · simp [divide, hnull, hr]
    · rw [toRat_eq_zero_of_undefined hr, zero_div, toRat_undefined]
  | true =>
    exact ⟨_, divide_eq_ofRat hr hs hnull, isDefined_ofRat _,
      fun h => ⟨canonical_ofRat h, toRat_ofRat h⟩⟩

end Rational

end Tabletop
