import Mathlib.Data.Rat.Floor
import Tabletop.Proofs.Rational.Canonical

/-!
# Sums that are cut

Adding zero stores a sum once more. That is no matter as long as the sum is stored as it is, but a
whole part that is cut may change when it is stored again: `9223372036854775807 n/n` becomes the
whole number after it, and is cut to `9223372036854775807`.

* **CutAlike** numbers are equal, or both past what can be stored and a whole number apart. They are
  stored alike (`CutAlike.ofRat_eq`), and stay so when something is added to both or both are
  multiplied (`CutAlike.add`, `CutAlike.mul`);
* what is stored for a number, and then stored again, is cut alike (`cutAlike_toRat_ofRat`). So two
  sums of the same amounts stay **alike** if zeros are added to one of them (`SumsAlike.add_null`),
  and they are scaled to the same (`SumsAlike.scaleBy_eq`);
* what is cut is past every **bound** that can be stored, and stays there (`toRat_ofRat_le_iff`).
-/

namespace Tabletop

namespace Rational

/-- Numbers that are stored alike: they are equal, or their whole parts are both cut and their
fractions are equal. -/
def CutAlike (p q : ℚ) : Prop :=
  p = q ∨ (maxStored : ℚ) ≤ p ∧ (maxStored : ℚ) ≤ q ∧ ∃ n : ℤ, p = q + n

theorem CutAlike.refl (q : ℚ) : CutAlike q q := .inl rfl

/-- The sums with a number that is not negative are cut alike. -/
theorem CutAlike.add {p q x : ℚ} (h : CutAlike p q) (hx : 0 ≤ x) : CutAlike (p + x) (q + x) := by
  obtain rfl | ⟨hp, hq, n, rfl⟩ := h
  · exact .refl _
  · exact .inr ⟨by linarith, by linarith, n, by ring⟩

/-- The products with a positive integer are cut alike. -/
theorem CutAlike.mul {p q : ℚ} {n : ℤ} (h : CutAlike p q) (hn : 0 < n) :
    CutAlike (p * n) (q * n) := by
  obtain rfl | ⟨hp, hq, z, rfl⟩ := h
  · exact .refl _
  · have hone : (1 : ℚ) ≤ n := by exact_mod_cast hn
    have hmax : (0 : ℚ) ≤ maxStored := by norm_num [maxStored]
    refine .inr ⟨?_, ?_, z * n, ?_⟩
    · nlinarith
    · nlinarith
    · push_cast
      ring

/-- A whole number more is as many denominators more in the numerator. -/
theorem num_add_intCast (q : ℚ) (n : ℤ) : (q + n).num = q.num + n * q.den := by
  have hden : (q.den : ℚ) ≠ 0 := by exact_mod_cast q.den_nz
  have hsum : ((q + n).num : ℚ) / q.den = q + n := by
    conv_rhs => rw [← Rat.num_div_den (q + n), Rat.add_intCast_den]
  have hmul : ((q + n).num : ℚ) = q.num + n * q.den := by
    rw [(div_eq_iff hden).mp hsum, add_mul, Rat.mul_den_eq_num]
  exact_mod_cast hmul

/-- Past what can be stored the whole part is cut. -/
theorem clampNat_of_maxStored_le {q : ℚ} (h : (maxStored : ℚ) ≤ q) :
    0 ≤ q.num ∧ clampNat (q.num.natAbs / q.den) = maxStored.toNat := by
  have hnum : maxStored * q.den ≤ q.num := by
    have hden : (0 : ℚ) < q.den := by exact_mod_cast q.den_pos
    have hmul := mul_le_mul_of_nonneg_right h hden.le
    rw [Rat.mul_den_eq_num] at hmul
    exact_mod_cast hmul
  have hnonneg : 0 ≤ q.num := le_trans (by unfold maxStored; positivity) hnum
  refine ⟨hnonneg, ?_⟩
  have hle : maxStored.toNat ≤ q.num.natAbs / q.den := by
    rw [Nat.le_div_iff_mul_le q.den_pos]
    zify
    rwa [abs_of_nonneg hnonneg, Int.toNat_of_nonneg (by decide)]
  unfold clampNat maxStored at *
  omega

/-- **Numbers cut alike are stored alike.** -/
theorem CutAlike.ofRat_eq {p q : ℚ} (h : CutAlike p q) : ofRat p = ofRat q := by
  obtain rfl | ⟨hp, hq, n, rfl⟩ := h
  · rfl
  · obtain ⟨hpos, hwhole⟩ := clampNat_of_maxStored_le hp
    obtain ⟨hpos', hwhole'⟩ := clampNat_of_maxStored_le hq
    have hmod : (q + n).num.natAbs % q.den = q.num.natAbs % q.den := by
      zify
      rw [abs_of_nonneg hpos, abs_of_nonneg hpos', num_add_intCast, Int.add_mul_emod_self_right]
    rw [Rational.ofRat_eq, Rational.ofRat_eq, hwhole, hwhole', Rat.add_intCast_den, hmod,
      decide_eq_false hpos.not_gt, decide_eq_false hpos'.not_gt]

theorem maxStored_le_of_not_fits {n : ℕ} (h : ¬ Fits (n : ℤ)) : maxStored ≤ n := by
  unfold Fits minStored maxStored at *
  omega

/-- A number that is not negative is its whole part and a fraction. -/
theorem eq_whole_add_fraction {q : ℚ} (hq : 0 ≤ q) :
    q = (q.num.natAbs / q.den : ℕ) + (q.num.natAbs % q.den : ℕ) / q.den := by
  have hden : (q.den : ℚ) ≠ 0 := by exact_mod_cast q.den_nz
  have hnum : (q.num.natAbs : ℚ) = q.num := by
    rw [Nat.cast_natAbs, abs_of_nonneg (Rat.num_nonneg.mpr hq)]
  have hparts := congrArg (Nat.cast : ℕ → ℚ) (Nat.div_add_mod' q.num.natAbs q.den)
  rw [Nat.cast_add, Nat.cast_mul, hnum] at hparts
  rw [← mul_left_inj' hden, add_mul, div_mul_cancel₀ _ hden, hparts, Rat.mul_den_eq_num]

/-- **What is stored** for a number whose denominator is kept is cut alike. -/
theorem cutAlike_toRat_ofRat {q : ℚ} (hq : 0 ≤ q) (hden : Fits (q.den : ℤ)) :
    CutAlike q (ofRat q).toRat := by
  by_cases hfits : Fits ((q.num.natAbs / q.den : ℕ) : ℤ)
  · rw [toRat_ofRat ⟨hfits, hden⟩]
    exact .refl q
  · -- the whole part is cut, and the fraction stays
    have hmod : q.num.natAbs % q.den < q.den := Nat.mod_lt _ q.den_pos
    have hpart : clampNat (q.num.natAbs % q.den) = q.num.natAbs % q.den := by
      apply clampNat_eq_self
      unfold Fits minStored maxStored at *
      omega
    have hstored : (ofRat q).toRat = maxStored + (q.num.natAbs % q.den : ℕ) / q.den := by
      have hsign : decide (q.num < 0) = false :=
        decide_eq_false (Rat.num_nonneg.mpr hq).not_gt
      rw [toRat_eq_parts (isDefined_ofRat q), Rational.ofRat_eq, clampNat_of_not_fits hfits, hpart,
        clampNat_eq_self hden, hsign]
      simp only [Bool.false_eq_true, if_false, one_mul]
      rfl
    have hfraction : (0 : ℚ) ≤ (q.num.natAbs % q.den : ℕ) / q.den := by positivity
    have hwhole := Int.cast_le (R := ℚ).mpr (maxStored_le_of_not_fits hfits)
    rw [Int.cast_natCast] at hwhole
    have hparts := eq_whole_add_fraction hq
    refine .inr ⟨by linarith, by linarith, (q.num.natAbs / q.den : ℕ) - maxStored, ?_⟩
    rw [Int.cast_sub, Int.cast_natCast]
    linarith

/-! ## Signs, denominators and bounds -/

/-- What is stored has a denominator that fits, whatever it is stored for. -/
theorem fits_den_toRat_ofRat (q : ℚ) : Fits ((ofRat q).toRat.den : ℤ) := by
  have hle := den_toRat_le (isDefined_ofRat q)
  have hstored := fits_clampNat q.den
  have hden : (ofRat q).den = clampNat q.den := by rw [Rational.ofRat_eq]
  rw [← hden] at hstored
  unfold Fits minStored at *
  omega

theorem fits_den_mul_intCast {q : ℚ} (h : Fits (q.den : ℤ)) (n : ℤ) :
    Fits ((q * n).den : ℤ) := by
  have hdvd : (q * n).den ∣ q.den := by
    simpa only [Rat.den_intCast, mul_one] using Rat.mul_den_dvd q n
  have hle := Nat.le_of_dvd q.den_pos hdvd
  unfold Fits minStored at *
  omega

/-- **Storing keeps the sign**: a number that is not negative is not stored as one below zero. -/
theorem toRat_ofRat_nonneg {q : ℚ} (hq : 0 ≤ q) : 0 ≤ (ofRat q).toRat := by
  apply toRat_nonneg
  rw [negative_ofRat]
  exact decide_eq_false (Rat.num_nonneg.mpr hq).not_gt

/-- A negative number is not stored as one above zero. -/
theorem toRat_ofRat_nonpos {q : ℚ} (hq : q < 0) : (ofRat q).toRat ≤ 0 := by
  have hsign : (ofRat q).negative = true := by
    rw [negative_ofRat]
    exact decide_eq_true (Rat.num_neg.mpr hq)
  have hparts : (0 : ℚ) ≤ (ofRat q).whole + (ofRat q).num / (ofRat q).den := by positivity
  rw [toRat_eq_parts (isDefined_ofRat q), if_pos hsign]
  linarith

/-- **Storing a number** does not bring it past a bound that can be stored. -/
theorem toRat_ofRat_le_iff {q x : ℚ} (hden : Fits (q.den : ℤ)) (hx : 0 ≤ x)
    (hlt : x < maxStored) : (ofRat q).toRat ≤ x ↔ q ≤ x := by
  rcases le_or_gt 0 q with hq | hq
  · obtain heq | ⟨hbig, hstored, -⟩ := cutAlike_toRat_ofRat hq hden
    · rw [← heq]
    · -- the number is cut, and past the bound before and after
      exact iff_of_false (hlt.trans_le hstored).not_ge (hlt.trans_le hbig).not_ge
  · exact iff_of_true ((toRat_ofRat_nonpos hq).trans hx) (hq.le.trans hx)

/-! ## Sums with and without zeros -/

/-- Two sums of the same amounts, but for zeros added to the second one. -/
structure SumsAlike (r s : Rational) : Prop where
  stored : ∃ q : ℚ, 0 ≤ q ∧ r = ofRat q
  isDefined : s.isDefined = true
  cutAlike : CutAlike r.toRat s.toRat

namespace SumsAlike

variable {r s : Rational}

theorem zero : SumsAlike .zero .zero := ⟨⟨0, le_rfl, by decide⟩, rfl, .refl _⟩

theorem isDefined_left (h : SumsAlike r s) : r.isDefined = true := by
  obtain ⟨q, -, rfl⟩ := h.stored
  exact isDefined_ofRat q

/-- Sums alike become equal with the next amount. -/
theorem add_eq (h : SumsAlike r s) {x : Rational} (hx : x.isDefined = true) (hpos : 0 ≤ x.toRat) :
    r.add x = s.add x := by
  rw [add_eq_ofRat h.isDefined_left hx, add_eq_ofRat h.isDefined hx]
  exact (h.cutAlike.add hpos).ofRat_eq

/-- **An amount more** leaves them alike. -/
theorem add (h : SumsAlike r s) {x : Rational} (hx : x.isDefined = true) (hpos : 0 ≤ x.toRat) :
    SumsAlike (r.add x) (s.add x) := by
  have hnonneg : 0 ≤ r.toRat + x.toRat := by
    obtain ⟨q, hq, rfl⟩ := h.stored
    exact add_nonneg (toRat_ofRat_nonneg hq) hpos
  rw [← h.add_eq hx hpos, add_eq_ofRat h.isDefined_left hx]
  exact ⟨⟨_, hnonneg, rfl⟩, isDefined_ofRat _, .refl _⟩

/-- **A zero more** in the second sum leaves them alike. -/
theorem add_null (h : SumsAlike r s) : SumsAlike r (s.add .zero) := by
  obtain ⟨q, hq, rfl⟩ := h.stored
  have hsum : s.add .zero = ofRat (ofRat q).toRat := by
    rw [add_eq_ofRat h.isDefined rfl, toRat_zero, add_zero, ← h.cutAlike.ofRat_eq]
  rw [hsum]
  exact ⟨⟨q, hq, rfl⟩, isDefined_ofRat _,
    cutAlike_toRat_ofRat (toRat_ofRat_nonneg hq) (fits_den_toRat_ofRat q)⟩

/-- Sums alike are scaled to the same. -/
theorem scaleBy_eq (h : SumsAlike r s) {n : ℤ} (hn : 0 < n) (d : ℤ) :
    r.scaleBy n d = s.scaleBy n d := by
  rw [scaleBy, scaleBy, multiplyInt_eq_ofRat h.isDefined_left, multiplyInt_eq_ofRat h.isDefined,
    (h.cutAlike.mul hn).ofRat_eq]

end SumsAlike

end Rational

end Tabletop
