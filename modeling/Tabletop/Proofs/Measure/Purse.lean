import Tabletop.Measure.Purse
import Tabletop.Proofs.Measure.Arithmetic

/-!
# What purses amount to

Purses are measures of one set, whose gold pieces are also the common scale. So the amount of a
purse is what it is worth in gold:

* **another amount** in a slot changes the total by the difference (`exactTotal_replace`);
* a number given for a **single** unit amounts to that multiple of the unit (`amount_single`), and
  so coins of one kind amount to what they are **worth** (`amount_coins`);
* the total in a set is the amount in its base unit (`toRat_valueIn`), and the total **inGold** is
  the amount itself (`toRat_inGold`).
-/

namespace Tabletop

open Rational

/-! ## Numbers of one unit -/

/-- **Another amount in a slot** changes the total by the difference, counted in that unit. -/
theorem exactTotal_replace (number : Rational) {units : List MeasureUnit} :
    ∀ {slots : Slots} {unit : ℕ} {u : MeasureUnit}, units[unit]? = some u → unit < slots.length →
      exactTotal units (slots.set unit (some number)) = exactTotal units slots +
        (number.toRat - slotAmount slots[unit]?.join) * u.multiplier / u.divisor := by
  induction units with
  | nil =>
    intro slots unit u h
    cases h
  | cons v vs ih =>
    intro slots unit u h hlt
    cases slots with
    | nil => cases hlt
    | cons slot slots =>
      cases unit with
      | zero =>
        cases h
        rw [List.set_cons_zero, exactTotal, exactTotal, List.getElem?_cons_zero, Option.join_some]
        simp only [slotAmount]
        ring
      | succ unit =>
        rw [List.set_cons_succ, exactTotal, exactTotal, List.getElem?_cons_succ,
          ih h (Nat.lt_of_succ_lt_succ hlt)]
        ring

/-- What fills the slot of a unit counts in that unit. -/
theorem exactTotal_set (number : Rational) {units : List MeasureUnit} {unit : ℕ} {u : MeasureUnit}
    (h : units[unit]? = some u) :
    exactTotal units ((units.map fun _ => none).set unit (some number)) =
      number.toRat * u.multiplier / u.divisor := by
  obtain ⟨hlt, -⟩ := List.getElem?_eq_some_iff.mp h
  have hempty : ((units.map fun _ => none : Slots)[unit]?).join = none := by
    rw [List.getElem?_map, h]
    rfl
  rw [exactTotal_replace number h (by rwa [List.length_map]), exactTotal_none, hempty, slotAmount,
    zero_add, sub_zero]

namespace Measure

variable {k : Kind}

/-- One amount in one slot is well-formed. -/
theorem WellFormed.single (k : Kind) (index unit : ℕ) (number : Rational) :
    (Measure.single k index unit number).WellFormed := by
  unfold Measure.single
  split
  · rename_i set hset
    exact .inSet hset (by rw [List.length_set, List.length_map])
  · exact .undefined k.level

/-- **A number of one unit** amounts to that multiple of the unit. -/
theorem amount_single {index unit : ℕ} {set : UnitSet} {u : MeasureUnit}
    (hset : k.family.sets[index]? = some set) (hunit : set.units[unit]? = some u)
    (number : Rational) :
    (Measure.single k index unit number).amount =
      number.toRat * u.multiplier / u.divisor * set.divisor / set.multiplier := by
  have hsingle : Measure.single k index unit number =
      ⟨some index, (set.units.map fun _ => none).set unit (some number), k.level⟩ := by
    rw [Measure.single, hset]
  rw [hsingle, amount_inSet hset, exactTotal_set number hunit]

/-! ## Totals in a set -/

/-- The exact results of the steps of `valueIn`. -/
def valueInSteps (m : Measure k) (index : ℕ) : List ℚ :=
  match k.family.sets[index]? with
  | some set => m.normalizedSteps ++ m.normalized.scaleSteps set.multiplier set.divisor
  | none => []

variable {m : Measure k} {index : ℕ} {set : UnitSet}

theorem isDefined_valueIn (hk : k.family.IsChecked) (hm : m.WellFormed)
    (hset : k.family.sets[index]? = some set) : (m.valueIn index).isDefined = m.isDefined := by
  have hs := hk set (List.mem_of_getElem? hset)
  simp only [valueIn, hset]
  rw [isDefined_scaleBy _ _ hs.divisor_pos.ne', isDefined_normalized hk hm]

/-- **The total in a set** is the amount, in its base unit. -/
theorem toRat_valueIn (hk : k.family.IsChecked) (hm : m.WellFormed)
    (hset : k.family.sets[index]? = some set) (h : Lossless (m.valueInSteps index)) :
    (m.valueIn index).toRat = m.amount * set.multiplier / set.divisor := by
  have hs := hk set (List.mem_of_getElem? hset)
  simp only [valueInSteps, hset] at h
  obtain ⟨hnormalized, hscale⟩ := lossless_append.mp h
  simp only [valueIn, hset]
  rw [toRat_scaleBy hs.divisor_pos.ne' hscale, toRat_normalized hk hm hnormalized]

end Measure

/-! ## Coins -/

/-- What a coin is worth in gold pieces. -/
def Coin.worth : Coin → ℚ
  | .platinum => 10
  | .gold => 1
  | .silver => 1 / 10
  | .copper => 1 / 100

namespace Money

theorem isChecked_family : (Kind.standard .money).family.IsChecked :=
  Dimension.isChecked_family .money

theorem wellFormed_coins (coin : Coin) (n : ℤ) : (coins coin n).WellFormed :=
  .single _ 0 coin.slot (.ofInt n)

/-- The slot of a coin is that of a unit as large as the coin is worth. -/
theorem exists_unit (coin : Coin) : ∃ u, Dimension.moneyFamily.sets[0].units[coin.slot]? = some u ∧
    (u.multiplier / u.divisor : ℚ) = coin.worth := by
  cases coin with
  | _ => exact ⟨_, rfl, by simp [Coin.worth]⟩

/-- **Coins amount to their worth.** -/
theorem amount_coins (coin : Coin) {n : ℤ} (h : Storable n) :
    Measure.amount (coins coin n) = n * coin.worth := by
  have hset : (Kind.standard .money).family.sets[0]? = some Dimension.moneyFamily.sets[0] := rfl
  obtain ⟨u, hunit, hworth⟩ := exists_unit coin
  rw [coins, Measure.amount_single hset hunit, ofInt_eq_ofRat, toRat_ofRat h, ← hworth]
  simp [Dimension.moneyFamily, mul_div_assoc]

/-- The exact results of the steps of `inGold`. -/
def goldSteps (m : Money) : List ℚ := m.valueInSteps 0

theorem isDefined_inGold {m : Money} (hm : m.WellFormed) : m.inGold.isDefined = m.isDefined :=
  Measure.isDefined_valueIn isChecked_family hm rfl

/-- **The total in gold** is the amount. -/
theorem toRat_inGold {m : Money} (hm : m.WellFormed) (h : Lossless m.goldSteps) :
    m.inGold.toRat = Measure.amount m := by
  have hvalue := Measure.toRat_valueIn isChecked_family hm rfl h
  rw [inGold, hvalue]
  simp

end Money

end Tabletop
