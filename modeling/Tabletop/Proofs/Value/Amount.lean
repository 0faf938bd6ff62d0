import Tabletop.Proofs.Measure.Arithmetic
import Tabletop.Value.Quantity

/-!
# Values with an amount

What has to be known of a type of values to say that a sum of them is exact. Rationals and measures
are such types; numbers and dice are not, since their sums are not exact or not always possible.

* **Amount** tells what a value amounts to and lists the exact results of the steps of adding and of
  simplifying values;
* **Amount.IsExact** says that any two values can be added, and that addition and simplification are
  exact where no step is cut.
-/

namespace Tabletop

open Rational

/-- A type of values that amount to a number. -/
class Amount (α : Type) where
  /-- What holds of every value that can be made. -/
  Valid : α → Prop
  /-- The number that a value amounts to. -/
  amount : α → ℚ
  /-- The exact results of the steps of adding two values. -/
  addSteps : α → α → List ℚ
  /-- The exact results of the steps of simplifying a value. -/
  simplifySteps : α → List ℚ

namespace Amount

/-- Any two values have a sum, and the sum amounts to the sum of the amounts. -/
structure IsExact (α : Type) [Quantity α] [Amount α] : Prop where
  one_kind : ∀ v w : α, Quantity.kindName v = Quantity.kindName w
  canAdd : ∀ v w : α, Quantity.canAdd v w = true
  /-- no value is a plain number, which would be taken for a modifier -/
  number?_eq_none : ∀ v : α, Quantity.number? v = none
  add : ∀ {v w : α}, Valid v → Valid w → ∃ s, Quantity.add v w = .ok s ∧ Valid s ∧
    (Lossless (addSteps v w) → amount s = amount v + amount w)
  simplified : ∀ {v : α}, Valid v → Valid (Quantity.simplified v) ∧
    (Lossless (simplifySteps v) → amount (Quantity.simplified v) = amount v)

end Amount

instance : Amount Rational where
  Valid _ := True
  amount := toRat
  addSteps r s := [r.toRat + s.toRat]
  simplifySteps _ := []

/-- **Rationals** are amounts that add up exactly. -/
theorem Rational.isExact : Amount.IsExact Rational where
  one_kind _ _ := rfl
  canAdd _ _ := rfl
  number?_eq_none _ := rfl
  add {r s} _ _ := ⟨r.add s, rfl, trivial, fun h => toRat_add (lossless_cons.mp h).1⟩
  simplified _ := ⟨trivial, fun _ => rfl⟩

instance (k : Kind) : Amount (Measure k) where
  Valid := Measure.WellFormed
  amount := Measure.amount
  addSteps := Measure.addSteps
  simplifySteps := Measure.simplifySteps

/-- **Measures of a checked family** are amounts that add up exactly. -/
theorem Measure.isExact {k : Kind} (hk : k.family.IsChecked) : Amount.IsExact (Measure k) where
  one_kind _ _ := rfl
  canAdd _ _ := rfl
  number?_eq_none _ := rfl
  add {m n} hm hn := ⟨m.add n, rfl, hm.add hn, amount_add hk hm hn⟩
  simplified hm := ⟨hm.simplify, amount_simplify hk hm⟩

end Tabletop
