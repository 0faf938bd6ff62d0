import Tabletop.Proofs.Expression.Grammar
import Tabletop.Record.Adjustments

/-!
# Checked expressions

The costs of a magic item and the divisor of a factor are checked by the functions that make these
expressions. **IsChecked** says that they passed; so they have in every expression that was read
from a text (`isChecked_of_parse`) or from a record (`isChecked_of_decode`).
-/

namespace Tabletop.Expression

open Family (bind_eq_ok)

/-- Costs are not negative, and a divisor is not zero. -/
def IsChecked : Expression → Prop
  | .magicItem _ _ _ material xp => 0 ≤ material ∧ 0 ≤ xp
  | .factor _ divide => divide ≠ 0
  | _ => True

instance : DecidablePred IsChecked
  | .magicItem _ _ _ material xp => inferInstanceAs (Decidable (0 ≤ material ∧ 0 ≤ xp))
  | .factor _ divide => inferInstanceAs (Decidable (divide ≠ 0))
  | .magicArmor _ | .magicWeapon _ | .equal _ => isTrue trivial

/-- **An expression that was read from a text is checked.** -/
theorem isChecked_of_parse {source : String} {e : Expression} (h : parse source = .ok e) :
    e.IsChecked := by
  have hwritten := isWritten_of_parse h
  cases e with
  | magicItem item spellLevel casterLevel material xp =>
    obtain ⟨⟨-, -, hmaterial, hxp⟩, -⟩ := hwritten
    exact ⟨hmaterial.nonneg, hxp.nonneg⟩
  | factor multiply divide => exact hwritten.2.2
  | _ => trivial

/-- The parts of a record are checked before they make an expression. -/
theorem isChecked_of_expressionOf {parts : Record.ExpressionParts} {e : Expression}
    (h : Record.expressionOf parts = .ok e) : e.IsChecked := by
  cases parts with
  | magicItem item spellLevel casterLevel material xp =>
    obtain ⟨-, hmaterial, hxp, rfl⟩ := makeItem_withCosts_eq_ok_iff.mp h
    exact ⟨hmaterial, hxp⟩
  | factor multiply divide =>
    obtain ⟨hdivide, rfl⟩ := makeFactor_eq_ok_iff.mp h
    exact hdivide
  | _ =>
    cases h
    trivial

/-- **An expression that was read from a record is checked.** -/
theorem isChecked_of_decode {j : Json} {e : Expression} (h : Recorded.decode j = .ok e) :
    e.IsChecked := by
  obtain ⟨parts, -, h⟩ := bind_eq_ok h
  exact isChecked_of_expressionOf h

end Tabletop.Expression
