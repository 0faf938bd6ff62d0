import Mathlib.Tactic.Ring
import Tabletop.Expression.Pricing
import Tabletop.Proofs.Expression.Checked
import Tabletop.Proofs.Measure.Purse
import Tabletop.Proofs.Rational.Operation

/-!
# Costs

What an expression adds to a price, exactly. Enhancements and magic items add to it; all other
expressions only change what is there.

* The price of enhancements goes with the square of their total, and each costs the difference it
  makes (`Enhancements.price`, `enhancementCost_eq`);
* the price of a magic item is its **itemPrice**, with half prices in silver
  (`amount_fullItemCost`). Its material and experience add to it, and count for nothing where they
  are negative together, which they are in no checked item (`itemPrice_of_isChecked`);
* together, the **cost** of an expression amounts to the change in the price of the enhancements and
  the price of the item (`amount_cost`).

Costs are computed with integers of 128 bits. **CostUncut** says that no intermediate result of a
cost is cut.
-/

namespace Tabletop

open Rational

/-! ## Integers of 128 bits -/

/-- An integer that 128 signed bits hold. -/
def FitsWide (n : ℤ) : Prop :=
  -170141183460469231731687303715884105728 ≤ n ∧ n ≤ 170141183460469231731687303715884105727

instance (n : ℤ) : Decidable (FitsWide n) := inferInstanceAs (Decidable (_ ∧ _))

/-- An integer that 128 bits hold is not cut to them. -/
theorem clampWide_eq_self {n : ℤ} (h : FitsWide n) : clampWide n = n := by
  unfold FitsWide at h
  unfold clampWide
  omega

/-- A number that is stored without loss fits. -/
theorem clamp_of_storable {n : ℤ} (h : Storable n) : clamp n = n := by
  have hn := storable_intCast_iff.mp h
  refine clamp_eq_self ?_
  unfold Fits minStored maxStored at *
  omega

namespace Expression

/-! ## What counts towards a price -/

/-- Whether the expression adds to a price. -/
def isCost : Expression → Bool
  | .magicArmor _ | .magicWeapon _ | .magicItem .. => true
  | .factor .. | .equal _ => false

/-- What the expression adds to the total of armor enhancements. -/
def armorBonus : Expression → ℤ
  | .magicArmor plus => plus
  | _ => 0

/-- What the expression adds to the total of weapon enhancements. -/
def weaponBonus : Expression → ℤ
  | .magicWeapon plus => plus
  | _ => 0

/-- The price of a magic item in gold, with its material and five gold pieces for each experience
point; a spell level of zero halves the price without them. Material and experience together never
lower a price. -/
def itemPrice : Expression → ℚ
  | .magicItem item spellLevel casterLevel material xp =>
    (if 0 < spellLevel then (item.basePrice * casterLevel * spellLevel : ℚ)
      else (item.basePrice * casterLevel / 2 : ℚ)) + max (material + 5 * xp) 0
  | _ => 0

/-- What the expression multiplies a price with. -/
def ratio : Expression → ℚ
  | .factor multiply divide => multiply / divide
  | _ => 1

/-- The enhancements after the expression. -/
def raised (held : Enhancements) (e : Expression) : Enhancements :=
  ⟨held.armor + e.armorBonus, held.weapon + e.weaponBonus⟩

/-- The money that the expression adds to a price. -/
def cost (held : Enhancements) : Expression → Money
  | .magicArmor plus => Money.gold (enhancementCost 1 held.armor plus)
  | .magicWeapon plus => Money.gold (enhancementCost 2 held.weapon plus)
  | .magicItem item spellLevel casterLevel material xp =>
    fullItemCost item spellLevel casterLevel material xp
  | .factor .. | .equal _ => Measure.undefined

end Expression

/-- What enhancements cost together, in gold. -/
def Enhancements.price (held : Enhancements) : ℚ := 1000 * held.armor ^ 2 + 2000 * held.weapon ^ 2

namespace Expression

/-! ## Enhancements -/

/-- No intermediate result is cut when a total of enhancements is raised and the price found. -/
@[mk_iff]
structure EnhancementUncut (weight held plus : ℤ) : Prop where
  mixed : FitsWide (2 * weight * held * plus)
  squared : FitsWide (plus * plus)
  weighted : FitsWide (plus * plus * weight)
  sum : FitsWide (2 * weight * held * plus + plus * plus * weight)
  price : FitsWide ((2 * weight * held * plus + plus * plus * weight) * 1000)
  stored : Storable ((2 * weight * held * plus + plus * plus * weight) * 1000 : ℤ)
  total : Fits (held + plus)

instance (weight held plus : ℤ) : Decidable (EnhancementUncut weight held plus) :=
  decidable_of_iff' _ (enhancementUncut_iff weight held plus)

/-- Without cuts an enhancement costs the difference between the squares of the totals, multiplied
out. -/
theorem enhancementCost_eq {weight held plus : ℤ} (h : EnhancementUncut weight held plus) :
    enhancementCost weight held plus =
      (2 * weight * held * plus + plus * plus * weight) * 1000 := by
  unfold enhancementCost
  simp only
  rw [clampWide_eq_self h.mixed, clampWide_eq_self h.squared, clampWide_eq_self h.weighted,
    clampWide_eq_self h.sum, clampWide_eq_self h.price, clamp_of_storable h.stored]

/-- **An enhancement costs** the difference between the squares of the totals. -/
theorem amount_enhancementCost {weight held plus : ℤ} (h : EnhancementUncut weight held plus) :
    Measure.amount (Money.gold (enhancementCost weight held plus)) =
      weight * 1000 * ((held + plus) ^ 2 - held ^ 2) := by
  rw [enhancementCost_eq h, Money.gold, Money.amount_coins .gold h.stored, Coin.worth]
  push_cast
  ring

/-! ## Magic items -/

/-- The coins that a magic item costs without material and experience. -/
def itemCoins (item : MagicItem) (spellLevel casterLevel : ℤ) : Coin × ℤ :=
  let price := item.basePrice * casterLevel
  if 0 < spellLevel then (.gold, price * spellLevel)
  else if price % 2 = 0 then (.gold, price / 2)
  else (.silver, price * 5)

/-- No intermediate result is cut when a magic item is priced. -/
@[mk_iff]
structure ItemUncut (item : MagicItem) (spellLevel casterLevel material xp : ℤ) : Prop where
  product : 0 < spellLevel → FitsWide (item.basePrice * casterLevel * spellLevel)
  stored : Storable ((itemCoins item spellLevel casterLevel).2 : ℚ)
  extra : 0 < material + 5 * xp → Storable ((material + 5 * xp : ℤ) : ℚ)
  sum : 0 < material + 5 * xp → Lossless (Measure.addSteps (itemCost item spellLevel casterLevel)
    (Money.gold (clamp (material + 5 * xp))))

instance (item : MagicItem) (spellLevel casterLevel material xp : ℤ) :
    Decidable (ItemUncut item spellLevel casterLevel material xp) :=
  decidable_of_iff' _ (itemUncut_iff item spellLevel casterLevel material xp)

/-- The coins of an item are worth its price, half gold pieces being paid in silver. -/
theorem worth_itemCoins (item : MagicItem) (spellLevel casterLevel : ℤ) :
    (itemCoins item spellLevel casterLevel).2 * (itemCoins item spellLevel casterLevel).1.worth =
      if 0 < spellLevel then (item.basePrice * casterLevel * spellLevel : ℚ)
      else (item.basePrice * casterLevel / 2 : ℚ) := by
  unfold itemCoins
  simp only
  split
  · rw [Coin.worth]
    push_cast
    ring
  · split
    · -- the half is a whole number of gold pieces
      rename_i heven
      obtain ⟨half, hhalf⟩ := Int.dvd_of_emod_eq_zero heven
      have hprice : (item.basePrice * casterLevel : ℚ) = 2 * half := by exact_mod_cast hhalf
      rw [hhalf, Int.mul_ediv_cancel_left half two_ne_zero, hprice, Coin.worth]
      ring
    · rw [Coin.worth]
      push_cast
      ring

section Items

variable {item : MagicItem} {spellLevel casterLevel material xp : ℤ}

/-- Without cuts an item is paid with these coins. -/
theorem itemCost_eq (h : ItemUncut item spellLevel casterLevel material xp) :
    itemCost item spellLevel casterLevel = Money.coins (itemCoins item spellLevel casterLevel).1
      (itemCoins item spellLevel casterLevel).2 := by
  -- whichever coins are paid, their number is stored without loss
  have hstored := h.stored
  unfold itemCost itemCoins at *
  simp only at hstored ⊢
  split
  · rename_i hspell
    rw [if_pos hspell] at hstored
    rw [clampWide_eq_self (h.product hspell), clamp_of_storable hstored, Money.gold]
  · rename_i hspell
    rw [if_neg hspell] at hstored
    split
    · rename_i heven
      rw [if_pos heven] at hstored
      rw [clamp_of_storable hstored, Money.gold]
    · rename_i hodd
      rw [if_neg hodd] at hstored
      rw [clamp_of_storable hstored]

theorem wellFormed_itemCost (item : MagicItem) (spellLevel casterLevel : ℤ) :
    (itemCost item spellLevel casterLevel).WellFormed := by
  unfold itemCost
  simp only
  split
  · exact Money.wellFormed_coins _ _
  · split <;> exact Money.wellFormed_coins _ _

theorem isDefined_itemCost (item : MagicItem) (spellLevel casterLevel : ℤ) :
    (itemCost item spellLevel casterLevel).isDefined = true := by
  unfold itemCost
  simp only
  split
  · rfl
  · split <;> rfl

theorem amount_itemCost (h : ItemUncut item spellLevel casterLevel material xp) :
    Measure.amount (itemCost item spellLevel casterLevel) =
      if 0 < spellLevel then (item.basePrice * casterLevel * spellLevel : ℚ)
      else (item.basePrice * casterLevel / 2 : ℚ) := by
  rw [itemCost_eq h, Money.amount_coins _ h.stored, worth_itemCoins]

/-- The price of an item is well-formed money, cut or not. -/
theorem wellFormed_fullItemCost (item : MagicItem) (spellLevel casterLevel material xp : ℤ) :
    (fullItemCost item spellLevel casterLevel material xp).WellFormed := by
  have hprice := wellFormed_itemCost item spellLevel casterLevel
  unfold fullItemCost
  simp only
  split
  · exact hprice.add (Money.wellFormed_coins _ _)
  · exact hprice

theorem isDefined_fullItemCost (item : MagicItem) (spellLevel casterLevel material xp : ℤ) :
    (fullItemCost item spellLevel casterLevel material xp).isDefined = true := by
  have hprice := isDefined_itemCost item spellLevel casterLevel
  unfold fullItemCost
  simp only
  split
  · rw [Measure.isDefined_add, hprice, Bool.true_or]
  · exact hprice

/-- **A magic item costs** its price, with the material and the experience. -/
theorem amount_fullItemCost (h : ItemUncut item spellLevel casterLevel material xp) :
    Measure.amount (fullItemCost item spellLevel casterLevel material xp) =
      (magicItem item spellLevel casterLevel material xp).itemPrice := by
  unfold fullItemCost
  simp only
  rw [itemPrice, ← amount_itemCost h]
  split
  · rename_i hextra
    have hprice := wellFormed_itemCost item spellLevel casterLevel
    have hgold : (Money.gold (clamp (material + 5 * xp))).WellFormed := Money.wellFormed_coins _ _
    rw [Measure.amount_add Money.isChecked_family hprice hgold (h.sum hextra),
      clamp_of_storable (h.extra hextra), Money.gold, Money.amount_coins .gold (h.extra hextra),
      Coin.worth, max_eq_left (le_of_lt hextra)]
    ring
  · rename_i hextra
    rw [max_eq_right (not_lt.mp hextra), Int.cast_zero, add_zero]

/-- The costs of a checked item are part of its price as they are. -/
theorem itemPrice_of_isChecked
    (h : (magicItem item spellLevel casterLevel material xp).IsChecked) :
    (magicItem item spellLevel casterLevel material xp).itemPrice =
      (if 0 < spellLevel then (item.basePrice * casterLevel * spellLevel : ℚ)
        else (item.basePrice * casterLevel / 2 : ℚ)) + material + 5 * xp := by
  obtain ⟨hmaterial, hxp⟩ := h
  have hnonneg : 0 ≤ material + 5 * xp := by omega
  rw [itemPrice, max_eq_left hnonneg]
  push_cast
  ring

end Items

/-! ## Costs of all kinds -/

/-- No intermediate result is cut when the cost of an expression is found. -/
def CostUncut (held : Enhancements) : Expression → Prop
  | .magicArmor plus => EnhancementUncut 1 held.armor plus
  | .magicWeapon plus => EnhancementUncut 2 held.weapon plus
  | .magicItem item spellLevel casterLevel material xp =>
    ItemUncut item spellLevel casterLevel material xp
  | .factor .. | .equal _ => True

instance (held : Enhancements) : DecidablePred (CostUncut held)
  | .magicArmor plus => inferInstanceAs (Decidable (EnhancementUncut 1 held.armor plus))
  | .magicWeapon plus => inferInstanceAs (Decidable (EnhancementUncut 2 held.weapon plus))
  | .magicItem item spellLevel casterLevel material xp =>
    inferInstanceAs (Decidable (ItemUncut item spellLevel casterLevel material xp))
  | .factor .. | .equal _ => isTrue trivial

theorem wellFormed_cost (held : Enhancements) (e : Expression) : (e.cost held).WellFormed := by
  cases e with
  | magicArmor plus => exact Money.wellFormed_coins _ _
  | magicWeapon plus => exact Money.wellFormed_coins _ _
  | magicItem item spellLevel casterLevel material xp => exact wellFormed_fullItemCost _ _ _ _ _
  | factor multiply divide => exact .undefined _
  | equal source => exact .undefined _

theorem isDefined_cost {e : Expression} (he : e.isCost) (held : Enhancements) :
    (e.cost held).isDefined = true := by
  cases e with
  | magicArmor plus => rfl
  | magicWeapon plus => rfl
  | magicItem item spellLevel casterLevel material xp => exact isDefined_fullItemCost _ _ _ _ _
  | factor multiply divide => cases he
  | equal source => cases he

/-- **A cost** is the change in the price of the enhancements, or the price of an item. -/
theorem amount_cost {held : Enhancements} {e : Expression} (h : e.CostUncut held) :
    Measure.amount (e.cost held) = (e.raised held).price - held.price + e.itemPrice := by
  cases e with
  | magicArmor plus =>
    rw [cost, amount_enhancementCost h]
    simp only [Enhancements.price, raised, armorBonus, weaponBonus, itemPrice]
    push_cast
    ring
  | magicWeapon plus =>
    rw [cost, amount_enhancementCost h]
    simp only [Enhancements.price, raised, armorBonus, weaponBonus, itemPrice]
    push_cast
    ring
  | magicItem item spellLevel casterLevel material xp =>
    rw [cost, amount_fullItemCost h]
    simp [raised, armorBonus, weaponBonus]
  | factor multiply divide =>
    rw [cost, Measure.amount_of_undefined rfl]
    simp [raised, armorBonus, weaponBonus, itemPrice]
  | equal source =>
    rw [cost, Measure.amount_of_undefined rfl]
    simp [raised, armorBonus, weaponBonus, itemPrice]

end Expression

end Tabletop
