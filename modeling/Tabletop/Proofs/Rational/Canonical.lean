import Mathlib.Data.Nat.GCD.Basic
import Mathlib.Tactic.MkIffOfInductiveProp
import Tabletop.Proofs.Rational.Exact

/-!
# Canonical form

What the three magnitudes and the sign of a stored value look like, and what that is good for.

* **InLowestTerms** says it part by part: the fraction is proper and reduced, and zero has no sign.
  Such a value, or the undefined one, is what **Canonical** means (`canonical_iff`);
* canonical values are equal **exactly if they compare equal** (`Canonical.compare_eq_iff`);
* storing cuts every part on its own, so a denominator that is cut may lose the form:
  **StaysReduced** is exactly what a number needs to be stored in lowest terms
  (`inLowestTerms_ofRat_iff`). A whole part that is cut changes the number, but not the form.
-/

namespace Tabletop

namespace Rational

/-- A value in lowest terms: a proper and reduced fraction, parts that can be stored, and no minus
before zero. -/
@[mk_iff] structure InLowestTerms (r : Rational) : Prop where
  proper : r.num < r.den
  coprime : Nat.Coprime r.num r.den
  unsigned_zero : r.negative = true → r.whole ≠ 0 ∨ r.num ≠ 0
  whole_fits : Fits (r.whole : ℤ)
  den_fits : Fits (r.den : ℤ)

instance (r : Rational) : Decidable r.InLowestTerms :=
  decidable_of_iff _ (inLowestTerms_iff r).symm

/-- A number that is stored in lowest terms: its denominator is kept, or the remaining numerator has
no divisor in common with the greatest denominator that can be stored. -/
def StaysReduced (q : ℚ) : Prop :=
  Fits (q.den : ℤ) ∨ Nat.Coprime (clampNat (q.num.natAbs % q.den)) maxStored.toNat

instance (q : ℚ) : Decidable (StaysReduced q) := inferInstanceAs (Decidable (_ ∨ _))

/-! ## The parts of a stored number -/

/-- What is stored for a number: the whole part, the rest and the denominator of its lowest terms,
each cut on its own. -/
theorem ofRat_eq (q : ℚ) :
    ofRat q = ⟨decide (q.num < 0), clampNat (q.num.natAbs / q.den),
      clampNat (q.num.natAbs % q.den), clampNat q.den⟩ := by
  have hden : (q.den : ℤ) ≠ 0 := by exact_mod_cast q.den_nz
  have hcop : Nat.gcd q.num.natAbs (q.den : ℤ).natAbs = 1 := q.reduced
  rw [← negative_ofRat, ofRat, reduced, if_neg hden, hcop]
  simp only [Nat.div_one, Int.natAbs_natCast]

theorem fits_clampNat (n : ℕ) : Fits (clampNat n : ℤ) := by
  rw [clampNat_cast]
  exact fits_clamp n

/-- Cutting makes no part zero, so no denominator is lost. -/
theorem clampNat_eq_zero {n : ℕ} : clampNat n = 0 ↔ n = 0 := by
  unfold clampNat
  omega

/-- What does not fit is cut to the greatest magnitude. -/
theorem clampNat_of_not_fits {n : ℕ} (h : ¬ Fits (n : ℤ)) : clampNat n = maxStored.toNat := by
  unfold Fits minStored maxStored at h
  unfold clampNat maxStored
  omega

/-- Splitting off the whole part keeps a fraction in lowest terms. -/
theorem coprime_mod_den (q : ℚ) : Nat.Coprime (q.num.natAbs % q.den) q.den := by
  rw [Nat.Coprime, ← Nat.gcd_rec, Nat.gcd_comm]
  exact q.reduced

/-- **A number is stored in lowest terms** exactly if it stays reduced. -/
theorem inLowestTerms_ofRat_iff (q : ℚ) : (ofRat q).InLowestTerms ↔ StaysReduced q := by
  have hzero : (ofRat q).negative = true → (ofRat q).whole ≠ 0 ∨ (ofRat q).num ≠ 0 := by
    rw [ofRat_eq]
    simp only [decide_eq_true_eq, ne_eq, clampNat_eq_zero]
    intro hneg
    by_contra! hparts
    have hsum := Nat.div_add_mod q.num.natAbs q.den
    rw [hparts.1, hparts.2] at hsum
    omega
  by_cases hden : Fits (q.den : ℤ)
  · -- nothing but the whole part can be cut
    have hlt : q.num.natAbs % q.den < q.den := Nat.mod_lt _ q.den_pos
    have hnum : clampNat (q.num.natAbs % q.den) = q.num.natAbs % q.den := by
      apply clampNat_eq_self
      unfold Fits minStored maxStored at *
      omega
    refine iff_of_true ⟨?_, ?_, hzero, ?_, ?_⟩ (.inl hden) <;>
      simp only [ofRat_eq, hnum, clampNat_eq_self hden]
    · exact hlt
    · exact coprime_mod_den q
    · exact fits_clampNat _
    · exact hden
  · -- the denominator is cut to the greatest one
    have hcut : (ofRat q).den = maxStored.toNat := by
      rw [ofRat_eq]
      exact clampNat_of_not_fits hden
    rw [StaysReduced, or_iff_right hden]
    constructor
    · intro h
      have hcop := h.coprime
      rw [hcut, ofRat_eq] at hcop
      exact hcop
    · intro hcop
      have hle : (ofRat q).num ≤ maxStored.toNat := by
        rw [ofRat_eq]
        exact min_le_right _ _
      refine ⟨?_, ?_, hzero, ?_, ?_⟩
      · rw [hcut]
        refine lt_of_le_of_ne hle fun heq => ?_
        have hpart : clampNat (q.num.natAbs % q.den) = maxStored.toNat := by
          rw [← heq, ofRat_eq]
        rw [hpart, Nat.coprime_self] at hcop
        exact absurd hcop (by decide)
      · rw [hcut, ofRat_eq]
        exact hcop
      · rw [ofRat_eq]
        exact fits_clampNat _
      · rw [ofRat_eq]
        exact fits_clampNat _

/-! ## Canonical values part by part -/

theorem numerator_eq (r : Rational) :
    r.numerator = (if r.negative then -1 else 1) * ((r.whole * r.den + r.num : ℕ) : ℤ) := by
  unfold numerator
  cases r.negative <;> simp

theorem natAbs_numerator (r : Rational) : r.numerator.natAbs = r.whole * r.den + r.num := by
  rw [numerator_eq]
  split <;> omega

/-- The number meant is the sign times whole part and fraction. -/
theorem toRat_eq_parts {r : Rational} (hr : r.isDefined) :
    r.toRat = (if r.negative then -1 else 1) * (r.whole + r.num / r.den) := by
  have hden : (r.den : ℚ) ≠ 0 := by exact_mod_cast isDefined_iff.mp hr
  rw [toRat_eq_div, numerator_eq]
  push_cast
  field_simp

theorem toRat_nonneg {r : Rational} (h : r.negative = false) : 0 ≤ r.toRat := by
  have hnumerator : 0 ≤ r.numerator := by
    rw [numerator_eq, h, if_neg Bool.false_ne_true, one_mul]
    exact Int.natCast_nonneg _
  rw [toRat_eq_div]
  exact div_nonneg (by exact_mod_cast hnumerator) (Nat.cast_nonneg _)

namespace InLowestTerms

variable {r : Rational}

/-- A value in lowest terms was set: there is no proper fraction without a denominator. -/
theorem isDefined (h : r.InLowestTerms) : r.isDefined = true := by
  have hlt := h.proper
  exact isDefined_iff.mpr (by omega)

/-- The whole part can be read off the improper fraction, for the rest is a proper one. -/
theorem natAbs_numerator_div (h : r.InLowestTerms) : r.numerator.natAbs / r.den = r.whole := by
  have hlt := h.proper
  rw [natAbs_numerator, Nat.add_comm, Nat.add_mul_div_right _ _ (by omega), Nat.div_eq_of_lt hlt,
    Nat.zero_add]

/-- Only zero has a numerator of zero, so the sign is that of the numerator. -/
theorem negative_eq (h : r.InLowestTerms) : r.negative = decide (r.numerator < 0) := by
  cases hneg : r.negative with
  | false =>
    have hmagnitude : ¬ ((r.whole * r.den + r.num : ℕ) : ℤ) < 0 := by omega
    simp only [numerator_eq, hneg, Bool.false_eq_true, if_false, one_mul, hmagnitude,
      decide_false]
  | true =>
    have hlt := h.proper
    have hpos : 0 < r.whole * r.den + r.num := by
      rcases h.unsigned_zero hneg with hwhole | hnum
      · have := Nat.mul_pos (Nat.pos_of_ne_zero hwhole) (show 0 < r.den by omega)
        omega
      · omega
    rw [numerator_eq, hneg, eq_comm, decide_eq_true_eq]
    simp only [if_true]
    omega

/-- In lowest terms the improper fraction is the one that the number itself has. -/
theorem num_toRat (h : r.InLowestTerms) : r.toRat.num = r.numerator ∧ r.toRat.den = r.den := by
  have hlt := h.proper
  have hcop : r.numerator.natAbs.Coprime r.den := by
    rw [natAbs_numerator, Nat.coprime_mul_right_add_left]
    exact h.coprime
  have heq : r.toRat = ⟨r.numerator, r.den, by omega, hcop⟩ := by
    rw [toRat, Rat.mk_eq_mkRat]
  rw [heq]
  exact ⟨rfl, rfl⟩

/-- A value in lowest terms is the stored form of the number that it means. -/
theorem eq_ofRat (h : r.InLowestTerms) : r = ofRat r.toRat := by
  obtain ⟨hnum, hden⟩ := h.num_toRat
  have hlt := h.proper
  have hmod : r.numerator.natAbs % r.den = r.num := by
    rw [natAbs_numerator, Nat.mul_add_mod_of_lt hlt]
  have hpart : clampNat r.num = r.num := by
    have hfits := h.den_fits
    apply clampNat_eq_self
    unfold Fits minStored maxStored at *
    omega
  rw [ofRat_eq, hnum, hden, h.natAbs_numerator_div, hmod, ← h.negative_eq,
    clampNat_eq_self h.whole_fits, clampNat_eq_self h.den_fits, hpart]

/-- What is in lowest terms can be stored as it is. -/
theorem storable (h : r.InLowestTerms) : Storable r.toRat := by
  obtain ⟨hnum, hden⟩ := h.num_toRat
  rw [Storable, hnum, hden, h.natAbs_numerator_div]
  exact ⟨h.whole_fits, h.den_fits⟩

end InLowestTerms

/-- The number meant has no greater denominator than the value. -/
theorem den_toRat_le {r : Rational} (hr : r.isDefined) : r.toRat.den ≤ r.den := by
  rw [toRat, Rat.den_mkRat, if_neg (isDefined_iff.mp hr)]
  exact Nat.div_le_self _ _

/-- **Canonical values** are those in lowest terms, beside the undefined one. -/
theorem canonical_iff {r : Rational} : r.Canonical ↔ r = undefined ∨ r.InLowestTerms := by
  constructor
  · rintro (h | h)
    · exact .inl h
    · -- the denominator of the number meant is no greater than the one stored, so it was not cut
      have hdef : r.isDefined = true := by rw [h, isDefined_ofRat]
      have hle := den_toRat_le hdef
      have hcut : r.den = clampNat r.toRat.den := congrArg Rational.den (h.trans (ofRat_eq _))
      have hfits : Fits (r.toRat.den : ℤ) := by
        have hstored := fits_clampNat r.toRat.den
        rw [← hcut] at hstored
        unfold Fits minStored at *
        omega
      right
      rw [h, inLowestTerms_ofRat_iff]
      exact .inl hfits
  · rintro (h | h)
    · exact .inl h
    · exact .inr h.eq_ofRat

/-- Of the canonical values only the undefined one is not in lowest terms. -/
theorem Canonical.inLowestTerms {r : Rational} (hr : r.Canonical) (hdef : r.isDefined = true) :
    r.InLowestTerms := by
  rcases canonical_iff.mp hr with rfl | h
  · cases hdef
  · exact h

/-- There is no negative zero. -/
theorem InLowestTerms.isNull_of_negative {r : Rational} (h : r.InLowestTerms)
    (hneg : r.negative = true) : r.isNull = false := by
  have hsome := h.unsigned_zero hneg
  simp only [isNull, Bool.and_eq_false_iff, beq_eq_false_iff_ne]
  omega

/-! ## Comparison -/

/-- Defined values compare like the numbers meant. -/
theorem compare_eq_iff_toRat {r s : Rational} (hr : r.isDefined) (hs : s.isDefined) :
    r.compare s = .eq ↔ r.toRat = s.toRat := by
  rw [toRat, toRat, Rat.mkRat_eq_iff (isDefined_iff.mp hr) (isDefined_iff.mp hs)]
  simp only [compare, hr, hs, Int.compare_eq_eq]

/-- **Canonical values are equal exactly if they compare equal.** -/
theorem Canonical.compare_eq_iff {r s : Rational} (hr : r.Canonical) (hs : s.Canonical) :
    r.compare s = .eq ↔ r = s := by
  cases hrd : r.isDefined with
  | false =>
    cases hsd : s.isDefined with
    | false =>
      have heq : r = s := hr.ext hs (by rw [hrd, hsd])
        (by rw [toRat_eq_zero_of_undefined hrd, toRat_eq_zero_of_undefined hsd])
      simp only [compare, hsd, heq]
    | true =>
      refine iff_of_false (by simp [compare, hrd, hsd]) fun h => ?_
      rw [h, hsd] at hrd
      cases hrd
  | true =>
    cases hsd : s.isDefined with
    | false =>
      refine iff_of_false (by simp [compare, hrd, hsd]) fun h => ?_
      rw [h, hsd] at hrd
      cases hrd
    | true =>
      rw [compare_eq_iff_toRat hrd hsd]
      exact ⟨hr.ext hs (by rw [hrd, hsd]), fun h => h ▸ rfl⟩

end Rational

end Tabletop
