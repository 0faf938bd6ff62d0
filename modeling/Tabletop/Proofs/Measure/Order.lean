import Tabletop.Proofs.Measure.Arithmetic
import Tabletop.Proofs.Rational.Order

/-!
# The order of measures

Measures are compared by their normalized values, whatever sets they are in.

* **exact** is the amount of a measure on the family's scale, with what was never given below all
  amounts; the comparison is that of these numbers (`compare_eq_exact`), and a total preorder;
* **conversion and simplification do not move** a measure in that order (`compare_of_normalized_eq`
  with `normalized_converted` and `normalized_simplify`).

**comparison_exact** puts the order of rationals and the order of measures together.
-/

namespace Tabletop

open Rational

namespace Measure

variable {k : Kind} {m n : Measure k}

/-- The amount, with what was never given below all amounts. -/
def exact (m : Measure k) : WithBot ℚ := if m.isDefined then (m.amount : WithBot ℚ) else ⊥

/-- A measure means the number that it is normalized to. -/
theorem exact_normalized (hk : k.family.IsChecked) (hm : m.WellFormed)
    (h : Lossless m.normalizedSteps) : m.normalized.exact = m.exact := by
  rw [Rational.exact, exact, isDefined_normalized hk hm, toRat_normalized hk hm h]

/-- **Comparing measures** compares their amounts. -/
theorem compare_eq_exact (hk : k.family.IsChecked) (hm : m.WellFormed) (hn : n.WellFormed)
    (h : Lossless (m.normalizedSteps ++ n.normalizedSteps)) :
    m.compare n = Ord.compare m.exact n.exact := by
  obtain ⟨hms, hns⟩ := lossless_append.mp h
  rw [compare, Rational.compare_eq_exact, exact_normalized hk hm hms, exact_normalized hk hn hns]

theorem compare_eq_amount (hk : k.family.IsChecked) (hm : m.WellFormed) (hn : n.WellFormed)
    (hmd : m.isDefined = true) (hnd : n.isDefined = true)
    (h : Lossless (m.normalizedSteps ++ n.normalizedSteps)) :
    m.compare n = Ord.compare m.amount n.amount := by
  rw [compare_eq_exact hk hm hn h, exact, exact, if_pos hmd, if_pos hnd]
  exact compare_congr WithBot.coe_lt_coe WithBot.coe_lt_coe

/-- The comparison is a total preorder. -/
instance : Std.TransCmp (compare (k := k)) where
  eq_swap {m n} :=
    (inferInstance : Std.OrientedCmp Rational.compare).eq_swap (a := m.normalized)
      (b := n.normalized)
  isLE_trans hmn hno := (inferInstance : Std.TransCmp Rational.compare).isLE_trans hmn hno

/-! ## Other forms of a measure -/

/-- **Conversion** keeps the normalized value. -/
theorem normalized_converted (hk : k.family.IsChecked) (hm : m.WellFormed) {index : ℕ}
    {simplify : Bool}
    (h : Lossless (m.normalizedSteps ++ m.convertedSteps index simplify ++
      (m.converted index simplify).normalizedSteps)) :
    (m.converted index simplify).normalized = m.normalized := by
  obtain ⟨h, hresult⟩ := lossless_append.mp h
  obtain ⟨hnormalized, hconverted⟩ := lossless_append.mp h
  exact normalized_congr hk (hm.converted index simplify) hm (isDefined_converted m index simplify)
    (amount_converted hk hm hconverted) (lossless_append.mpr ⟨hresult, hnormalized⟩)

/-- **Simplification** keeps the normalized value. -/
theorem normalized_simplify (hk : k.family.IsChecked) (hm : m.WellFormed)
    (h : Lossless (m.normalizedSteps ++ m.simplifySteps ++ m.simplify.normalizedSteps)) :
    m.simplify.normalized = m.normalized := by
  obtain ⟨h, hresult⟩ := lossless_append.mp h
  obtain ⟨hnormalized, hsimplify⟩ := lossless_append.mp h
  exact normalized_congr hk hm.simplify hm (isDefined_simplify m) (amount_simplify hk hm hsimplify)
    (lossless_append.mpr ⟨hresult, hnormalized⟩)

/-- Measures that are normalized alike compare alike, on either side. -/
theorem compare_of_normalized_eq {c : Measure k} (h : c.normalized = m.normalized)
    (n : Measure k) : c.compare n = m.compare n ∧ n.compare c = n.compare m := by
  rw [compare, compare, compare, compare, h]
  exact ⟨rfl, rfl⟩

/-! ## The whole statement -/

/-- **Comparison is the exact order.** Canonical rationals are ordered totally by what they mean,
with the undefined value below all; adding the same keeps that order among numbers, and negation
turns it round. Measures of every family that can be read are ordered by what they amount to, and
are not moved by conversion into another set or by simplification. -/
theorem comparison_exact :
    (∀ r s : Rational, r.Canonical → s.Canonical →
      r.compare s = Ord.compare r.exact s.exact ∧
      (r.compare s = .eq ↔ r = s) ∧
      ((r.compare s).isLE ∨ (s.compare r).isLE) ∧
      ((r.compare s).isLE → (s.compare r).isLE → r = s) ∧
      (∀ t : Rational, t.Canonical →
        (r.compare s).isLE → (s.compare t).isLE → (r.compare t).isLE) ∧
      (r.isDefined → s.isDefined →
        r.negate.compare s.negate = s.compare r ∧
        ∀ t : Rational, t.Canonical → t.isDefined →
          Lossless [r.toRat + t.toRat, s.toRat + t.toRat] →
          (r.add t).compare (s.add t) = r.compare s)) ∧
    ∀ (k : Kind) (definition : String), Family.parse definition = .ok k.family →
      Std.TransCmp (compare (k := k)) ∧
      ∀ m n : Measure k, m.WellFormed → n.WellFormed →
        (Lossless (m.normalizedSteps ++ n.normalizedSteps) →
          m.compare n = Ord.compare m.exact n.exact) ∧
        (∀ index simplify, index < k.family.sets.length →
          ∃ c, m.toSet index simplify = .ok c ∧
            (Lossless (m.normalizedSteps ++ m.convertedSteps index simplify ++ c.normalizedSteps) →
              c.compare n = m.compare n ∧ n.compare c = n.compare m)) ∧
        (Lossless (m.normalizedSteps ++ m.simplifySteps ++ m.simplify.normalizedSteps) →
          m.simplify.compare n = m.compare n ∧ n.compare m.simplify = n.compare m) := by
  refine ⟨fun r s hr hs => ?_, fun k definition hk => ⟨inferInstance, fun m n hm hn => ?_⟩⟩
  · have hswap : s.compare r = (r.compare s).swap := Std.OrientedCmp.eq_swap
    have heq := hr.compare_eq_iff hs
    refine ⟨r.compare_eq_exact s, heq, ?_, ?_, fun t _ => Std.TransCmp.isLE_trans,
      fun hrd hsd => ⟨compare_negate hr hs hrd hsd, fun t _ _ => compare_add_right hrd hsd⟩⟩
    · rw [hswap]
      cases r.compare s with
      | lt | eq => exact .inl rfl
      | gt => exact .inr rfl
    · intro hrs hsr
      exact heq.mp (Std.OrientedCmp.isLE_antisymm hrs hsr)
  · have hchecked := Family.isChecked_of_parse hk
    refine ⟨compare_eq_exact hchecked hm hn, fun index simplify hindex => ?_,
      fun h => compare_of_normalized_eq (normalized_simplify hchecked hm h) n⟩
    exact ⟨m.converted index simplify, by rw [toSet, if_pos hindex],
      fun h => compare_of_normalized_eq (normalized_converted hchecked hm h) n⟩

theorem comparison_exact_thirds_distance :
    (Rational.signed 0 (-1) 3).compare (.signed 0 1 2) = .lt ∧
    (Rational.signed 0 (-1) 3).negate.compare (Rational.signed 0 1 2).negate = .gt ∧
    ((Rational.signed 0 (-1) 3).add (.signed 2 1 6)).compare
      ((Rational.signed 0 1 2).add (.signed 2 1 6)) = .lt ∧
    negativeMetric.compare mileAndFeet = .lt ∧
    (∃ c, negativeMetric.toSet 0 true = .ok c ∧ c.compare mileAndFeet = .lt) ∧
    mileAndFeet.compare negativeMetric.simplify = .gt := by
  have hcanonical :
      ∀ r ∈ [Rational.signed 0 (-1) 3, .signed 0 1 2, .signed 2 1 6], r.Canonical := by
    intro r hr
    simp only [List.mem_cons, List.not_mem_nil, or_false] at hr
    rcases hr with rfl | rfl | rfl <;> exact .inr (by decide +kernel)
  obtain ⟨-, -, -, -, -, harithmetic⟩ := comparison_exact.1 (.signed 0 (-1) 3) (.signed 0 1 2)
    (hcanonical _ (by decide)) (hcanonical _ (by decide))
  obtain ⟨hnegate, hadd⟩ := harithmetic rfl rfl
  have hlt : (Rational.signed 0 (-1) 3).compare (.signed 0 1 2) = .lt := by decide +kernel
  have hgt : (Rational.signed 0 1 2).compare (.signed 0 (-1) 3) = .gt := by decide +kernel
  obtain ⟨-, hmeasures⟩ := comparison_exact.2 (.standard .distance) _
    (Dimension.parse_definition .distance)
  obtain ⟨-, htoSet, hsimplify⟩ := hmeasures negativeMetric mileAndFeet (.inSet rfl rfl)
    (.inSet rfl rfl)
  have hmeasure : negativeMetric.compare mileAndFeet = .lt := by decide +kernel
  have hmeasure' : mileAndFeet.compare negativeMetric = .gt := by decide +kernel
  refine ⟨hlt, hnegate.trans hgt,
    (hadd _ (hcanonical _ (by decide)) rfl (by decide +kernel)).trans hlt, hmeasure, ?_,
    (hsimplify (by decide +kernel)).2.trans hmeasure'⟩
  obtain ⟨c, hc, h⟩ := htoSet 0 true (by decide)
  obtain rfl : negativeMetric.converted 0 true = c := Except.ok.inj hc
  exact ⟨_, hc, (h (by decide +kernel)).1.trans hmeasure⟩

end Measure

end Tabletop
