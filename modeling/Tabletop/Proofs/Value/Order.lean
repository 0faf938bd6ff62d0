import Mathlib.Data.Prod.Lex
import Tabletop.Proofs.Measure.Order
import Tabletop.Proofs.Record.Values

/-!
# The order of values

Every type of values is compared in a way of its own: numbers and rationals as what they mean,
measures as what they are normalized to, dice as their averages and then as their highest results.

* **Ranked** types give each value a rank, which is a number and a second one to part equal ones;
* **Ranked.IsOrdered** says that values of one kind compare as their ranks do, and that simplifying
  a value does not change its rank where no step is cut. All types of values are such
  (`isOrdered_int`, …, `Value.isOrdered`).
-/

namespace Tabletop

open Rational

/-- A number, or nothing below all numbers, and a second number that parts equal ones. -/
abbrev Rank : Type := WithBot ℚ ×ₗ ℤ

/-- The rank of what is compared by one number. -/
def Rank.ofExact (x : WithBot ℚ) : Rank := toLex (x, 0)

theorem Rank.ofExact_lt_ofExact {x y : WithBot ℚ} : ofExact x < ofExact y ↔ x < y := by
  rw [ofExact, ofExact, Prod.Lex.toLex_lt_toLex]
  simp

/-- Ranks of exact values are compared as the values are. -/
theorem Rank.compare_ofExact (x y : WithBot ℚ) :
    Ord.compare (ofExact x) (ofExact y) = Ord.compare x y :=
  compare_congr ofExact_lt_ofExact ofExact_lt_ofExact

/-- A type of values with ranks. -/
class Ranked (α : Type) where
  /-- What holds of every value that can be made. -/
  Valid : α → Prop
  rank : α → Rank
  /-- The exact results of the steps of ranking a value, as it is and simplified. -/
  rankSteps : α → List ℚ

/-- **Ranks** order the values of a kind, and simplified values keep theirs. -/
structure Ranked.IsOrdered (α : Type) [Quantity α] [Ranked α] : Prop where
  compare_eq : ∀ {v w : α}, Quantity.kindName v = Quantity.kindName w →
    Quantity.compare v w = some (Ord.compare (rank v) (rank w))
  kindName_simplified : ∀ v : α, Quantity.kindName (Quantity.simplified v) = Quantity.kindName v
  rank_simplified : ∀ {v : α}, Valid v → Lossless (rankSteps v) →
    rank (Quantity.simplified v) = rank v
  valid_add : ∀ {v w s : α}, Valid v → Valid w → Quantity.add v w = .ok s → Valid s

/-! ## Numbers, rationals and dice -/

instance : Ranked Int where
  Valid _ := True
  rank n := .ofExact (n : ℚ)
  rankSteps _ := []

/-- An integer is compared as the number that it is. -/
theorem Rank.compare_intCast (m n : ℤ) :
    Ord.compare ((m : ℚ) : WithBot ℚ) ((n : ℚ) : WithBot ℚ) = Ord.compare m n :=
  compare_congr (by rw [WithBot.coe_lt_coe, Int.cast_lt]) (by rw [WithBot.coe_lt_coe, Int.cast_lt])

theorem isOrdered_int : Ranked.IsOrdered Int where
  compare_eq {m n} _ := by
    change some (Ord.compare m n) = some (Ord.compare (Rank.ofExact _) (Rank.ofExact _))
    rw [Rank.compare_ofExact, Rank.compare_intCast]
  kindName_simplified _ := rfl
  rank_simplified _ _ := rfl
  valid_add _ _ _ := trivial

instance : Ranked Rational where
  Valid _ := True
  rank r := .ofExact r.exact
  rankSteps _ := []

/-- Canonical rationals are ordered by the numbers that they mean. -/
theorem Rational.isOrdered : Ranked.IsOrdered Rational where
  compare_eq {r s} _ := by
    change some (r.compare s) = some (Ord.compare (Rank.ofExact _) (Rank.ofExact _))
    rw [Rank.compare_ofExact, compare_eq_exact]
  kindName_simplified _ := rfl
  rank_simplified _ _ := rfl
  valid_add _ _ _ := trivial

instance : Ranked Dice where
  Valid _ := True
  rank d := toLex (((d.average : ℚ) : WithBot ℚ), d.max)
  rankSteps _ := []

/-- Dice are ordered by their average results, and by the highest ones where these are equal. -/
theorem Dice.isOrdered : Ranked.IsOrdered Dice where
  compare_eq {d e} _ := by
    change some ((Ord.compare d.average e.average).then (Ord.compare d.max e.max)) =
      some ((Ord.compare ((d.average : ℚ) : WithBot ℚ) ((e.average : ℚ) : WithBot ℚ)).then
        (Ord.compare d.max e.max))
    rw [Rank.compare_intCast]
  kindName_simplified _ := rfl
  rank_simplified _ _ := rfl
  valid_add _ _ _ := trivial

/-! ## Measures -/

instance (k : Kind) : Ranked (Measure k) where
  Valid := Measure.WellFormed
  rank m := .ofExact m.normalized.exact
  rankSteps m := m.normalizedSteps ++ m.simplifySteps ++ m.simplify.normalizedSteps

/-- Measures are ordered by their normalized amounts. -/
theorem Measure.isOrdered {k : Kind} (hk : k.family.IsChecked) : Ranked.IsOrdered (Measure k) where
  compare_eq {m n} _ := by
    change some (m.compare n) = some (Ord.compare (Rank.ofExact _) (Rank.ofExact _))
    rw [Rank.compare_ofExact, compare, Rational.compare_eq_exact]
  kindName_simplified _ := rfl
  rank_simplified {m} hm h := by
    change Rank.ofExact m.simplify.normalized.exact = Rank.ofExact m.normalized.exact
    rw [normalized_simplify hk hm h]
  valid_add {m n s} hm hn h := by
    obtain rfl := Except.ok.inj h
    exact hm.add hn

theorem isOrdered_standard (d : Dimension) : Ranked.IsOrdered (Measure (.standard d)) :=
  Measure.isOrdered (k := .standard d) (Dimension.isChecked_family d)

/-! ## Values of all kinds -/

instance : Ranked Value where
  Valid
    | .measure _ m => m.WellFormed
    | _ => True
  rank
    | .number n => Ranked.rank n
    | .rational r => Ranked.rank r
    | .dice d => Ranked.rank d
    | .measure _ m => Ranked.rank m
  rankSteps
    | .measure _ m => Ranked.rankSteps m
    | _ => []

/-- **Values of one kind** are ordered as that kind is. -/
theorem Value.isOrdered : Ranked.IsOrdered Value where
  compare_eq {v w} h := by
    have hkind := kind_eq_of_kindName h
    cases v <;> cases w <;> cases hkind
    case number.number m n => exact isOrdered_int.compare_eq rfl
    case rational.rational r s => exact Rational.isOrdered.compare_eq rfl
    case dice.dice d e => exact Dice.isOrdered.compare_eq rfl
    case measure.measure d m n =>
      change (if h : d = d then some (m.compare n) else none) = _
      rw [dif_pos rfl]
      exact (isOrdered_standard d).compare_eq rfl
  kindName_simplified v := by
    cases v <;> rfl
  rank_simplified {v} hv h := by
    cases v with
    | measure d m => exact (isOrdered_standard d).rank_simplified hv h
    | _ => rfl
  valid_add {v w s} hv hw h := by
    obtain ⟨hkind, -⟩ := add_cases h
    cases v with
    | measure d m =>
      cases w with
      | measure e n =>
        by_cases heq : e = d
        · subst heq
          obtain rfl : measure e (m.add n) = s := by simpa [Quantity.add, add] using h
          exact Measure.WellFormed.add hv hw
        · simp [Quantity.add, add, heq] at h
      | _ => simp [Quantity.add, add] at h
    | _ =>
      -- a sum stays with its kind, and only measures are asked for anything
      cases s with
      | measure d m => cases hkind
      | _ => trivial

end Tabletop
