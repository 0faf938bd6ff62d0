import Mathlib.Order.WithBot
import Tabletop.Proofs.Rational.Canonical

/-!
# The order of rationals

Two values are compared without dividing: each numerator is multiplied by the other denominator.

* **exact** is the number meant, with the undefined value below all numbers;
* **comparing values compares these numbers** (`compare_eq_exact`), in lowest terms or not. So the
  comparison is a total preorder, and among canonical values an order;
* numbers keep their order when the same is added to them (`compare_add_right`), and negation turns
  it round (`compare_negate`), where nothing is cut.
-/

namespace Tabletop

namespace Rational

variable {r s t : Rational}

/-! ## Exact numbers -/

/-- The number meant, with the undefined value below all numbers. -/
def exact (r : Rational) : WithBot ℚ := if r.isDefined then (r.toRat : WithBot ℚ) else ⊥

theorem exact_of_isDefined (hr : r.isDefined = true) : r.exact = r.toRat := if_pos hr

theorem exact_of_undefined (hr : r.isDefined = false) : r.exact = ⊥ := by
  rw [exact, hr, if_neg Bool.false_ne_true]

/-! ## Comparison -/

/-- Fractions are in the order of their products with the other denominator. -/
theorem toRat_lt_iff (hr : r.isDefined = true) (hs : s.isDefined = true) :
    r.toRat < s.toRat ↔ r.numerator * s.den < s.numerator * r.den := by
  have hrd : (0 : ℚ) < r.den := by exact_mod_cast Nat.pos_of_ne_zero (isDefined_iff.mp hr)
  have hsd : (0 : ℚ) < s.den := by exact_mod_cast Nat.pos_of_ne_zero (isDefined_iff.mp hs)
  rw [toRat_eq_div, toRat_eq_div, div_lt_div_iff₀ hrd hsd]
  exact_mod_cast Iff.rfl

/-- Two comparisons agree if they find the same pairs smaller, both ways round. -/
theorem compare_congr {α β : Type} [LinearOrder α] [LinearOrder β] {a b : α} {c d : β}
    (hlt : a < b ↔ c < d) (hgt : b < a ↔ d < c) : Ord.compare a b = Ord.compare c d := by
  rcases lt_trichotomy a b with h | h | h
  · rw [compare_lt_iff_lt.mpr h, compare_lt_iff_lt.mpr (hlt.mp h)]
  · have heq : c = d :=
      le_antisymm (not_lt.mp fun hdc => (hgt.mpr hdc).ne' h)
        (not_lt.mp fun hcd => (hlt.mpr hcd).ne h)
    rw [compare_eq_iff_eq.mpr h, compare_eq_iff_eq.mpr heq]
  · rw [compare_gt_iff_gt.mpr h, compare_gt_iff_gt.mpr (hgt.mp h)]

/-- **Comparing values** compares the exact numbers. -/
theorem compare_eq_exact (r s : Rational) : r.compare s = Ord.compare r.exact s.exact := by
  cases hr : r.isDefined with
  | false =>
    cases hs : s.isDefined with
    | false =>
      rw [exact_of_undefined hr, exact_of_undefined hs, compare_eq_iff_eq.mpr rfl]
      simp only [compare, hr, hs]
    | true =>
      rw [exact_of_undefined hr, exact_of_isDefined hs,
        compare_lt_iff_lt.mpr (WithBot.bot_lt_coe s.toRat)]
      simp only [compare, hr, hs]
  | true =>
    cases hs : s.isDefined with
    | false =>
      rw [exact_of_isDefined hr, exact_of_undefined hs,
        compare_gt_iff_gt.mpr (WithBot.bot_lt_coe r.toRat)]
      simp only [compare, hr, hs]
    | true =>
      rw [exact_of_isDefined hr, exact_of_isDefined hs]
      simp only [compare, hr, hs]
      refine compare_congr ?_ ?_
      · rw [WithBot.coe_lt_coe, toRat_lt_iff hr hs]
      · rw [WithBot.coe_lt_coe, toRat_lt_iff hs hr]

theorem compare_of_isDefined (hr : r.isDefined = true) (hs : s.isDefined = true) :
    r.compare s = Ord.compare r.toRat s.toRat := by
  rw [compare_eq_exact, exact_of_isDefined hr, exact_of_isDefined hs]
  exact compare_congr WithBot.coe_lt_coe WithBot.coe_lt_coe

/-- The comparison is a total preorder. -/
instance : Std.TransCmp compare where
  eq_swap {r s} := by
    rw [compare_eq_exact, compare_eq_exact]
    exact Std.OrientedOrd.eq_swap
  isLE_trans {r s t} := by
    rw [compare_eq_exact, compare_eq_exact, compare_eq_exact]
    exact Std.TransOrd.isLE_trans

/-! ## Comparison and arithmetic -/

/-- **Adding the same** on both sides keeps the order of numbers. -/
theorem compare_add_right (hr : r.isDefined = true) (hs : s.isDefined = true)
    (h : Lossless [r.toRat + t.toRat, s.toRat + t.toRat]) :
    (r.add t).compare (s.add t) = r.compare s := by
  obtain ⟨hrt, hst, -⟩ := by simpa only [lossless_cons] using h
  have hrt' : (r.add t).isDefined = true := by rw [isDefined_add, hr, Bool.true_or]
  have hst' : (s.add t).isDefined = true := by rw [isDefined_add, hs, Bool.true_or]
  rw [compare_of_isDefined hrt' hst', compare_of_isDefined hr hs, toRat_add hrt, toRat_add hst]
  exact compare_congr (add_lt_add_iff_right t.toRat) (add_lt_add_iff_right t.toRat)

/-- What a canonical value means can be stored. -/
theorem Canonical.storable (hr : r.Canonical) (hdef : r.isDefined = true) : Storable r.toRat :=
  (hr.inLowestTerms hdef).storable

/-- **Negation** turns the order of numbers round. What is stored is never cut by it. -/
theorem compare_negate (hr : r.Canonical) (hs : s.Canonical) (hrd : r.isDefined = true)
    (hsd : s.isDefined = true) : r.negate.compare s.negate = s.compare r := by
  have hrn : r.negate.isDefined = true := by rw [isDefined_negate, hrd]
  have hsn : s.negate.isDefined = true := by rw [isDefined_negate, hsd]
  rw [compare_of_isDefined hrn hsn, compare_of_isDefined hsd hrd,
    toRat_negate (storable_neg.mpr (hr.storable hrd)),
    toRat_negate (storable_neg.mpr (hs.storable hsd))]
  exact compare_congr neg_lt_neg_iff neg_lt_neg_iff

end Rational

end Tabletop
