import Mathlib.Algebra.BigOperators.Group.List.Basic
import Mathlib.Tactic.Ring
import Tabletop.Proofs.Expression.Cost
import Tabletop.Proofs.Expression.Order
import Tabletop.Value.Basic

/-!
# Stacked prices

What a list of expressions makes of a price. The costs in it depend on the enhancements before them,
half prices take silver, and every factor spreads the coins anew; yet the result is given by sums
and a product over the list:

* one expression changes the price of the enhancements and adds a price, or it multiplies
  (`apply_exact`);
* costs come before factors, so the changes **telescope** and all factors multiply the whole
  (`applyEach_exact`);
* thus the price is **(start + enhancements + items) · factors** (`stacked_price`). There is none if
  there was none at the start and no expression adds to it, or if a factor has no ratio
  (`applyEach_eq_none_iff`).

**NothingCut** lists what is assumed: that no result on the way is cut. Nothing is assumed of the
expressions. In those that were read from a text or a record, which are checked, no cost is negative
and every factor has a ratio; `negativeMaterial_adds_nothing` tells what an item makes of a price
that nobody checked.
-/

namespace Tabletop.Expression

open Rational

/-! ## Prices that may be absent -/

/-- What money amounts to on the common scale; absent money counts as zero. -/
def amountOf (value : Option Money) : ℚ := (value.map Measure.amount).getD 0

/-- Money that is absent or was given. -/
def Given (value : Option Money) : Prop := ∀ m ∈ value, m.WellFormed ∧ m.isDefined = true

theorem given_some {m : Money} (hm : m.WellFormed) (hdef : m.isDefined = true) :
    Given (some m) := by
  rintro _ ⟨⟩
  exact ⟨hm, hdef⟩

/-- A cost is added to a price, and is the price where there is none. -/
theorem addCost_eq (value : Option Money) (cost : Money) :
    addCost value cost = some (value.elim cost fun v => Measure.add v cost) := by
  cases value <;> rfl

/-- Adding a cost adds what it amounts to. -/
theorem addCost_exact {value : Option Money} {cost : Money} (hvalue : Given value)
    (hcost : cost.WellFormed) (hdef : cost.isDefined = true) :
    ∃ m, addCost value cost = some m ∧ Given (some m) ∧
      (Lossless (value.toList.flatMap fun v => Measure.addSteps v cost) →
        Measure.amount m = amountOf value + Measure.amount cost) := by
  cases value with
  | none => exact ⟨cost, rfl, given_some hcost hdef, fun _ => (zero_add _).symm⟩
  | some v =>
    obtain ⟨hv, hvdef⟩ := hvalue v rfl
    refine ⟨Measure.add v cost, rfl, given_some (hv.add hcost) ?_, fun h => ?_⟩
    · rw [Measure.isDefined_add, hvdef, Bool.true_or]
    · rw [Option.toList_some, List.flatMap_singleton] at h
      exact Measure.amount_add Money.isChecked_family hv hcost h

/-! ## One expression -/

/-- The exact results of the steps of adding a cost or of multiplying. -/
def applySteps (value : Option Money) (held : Enhancements) : Expression → List ℚ
  | .factor multiply divide =>
    (multiply / divide : ℚ) ::
      value.toList.flatMap fun v => Measure.multiplySteps v (ofRat (multiply / divide))
  | e => value.toList.flatMap fun v => Measure.addSteps v (e.cost held)

/-- No result is cut when an expression is applied. -/
def ApplyUncut (value : Option Money) (held : Enhancements) (e : Expression) : Prop :=
  e.CostUncut held ∧ Lossless (e.applySteps value held)

instance (value : Option Money) (held : Enhancements) : DecidablePred (ApplyUncut value held) :=
  fun _ => inferInstanceAs (Decidable (_ ∧ _))

/-- A cost adds its money and raises the enhancements. -/
theorem apply_of_isCost {α : Type} [Quantity α] {e : Expression} (he : e.isCost)
    {held : Enhancements} (h : e.CostUncut held) (value : Option α) :
    e.apply value held = (addCost value (e.cost held), e.raised held) := by
  cases e with
  | magicArmor plus =>
    simp only [apply, clamp_eq_self h.total, cost, raised, armorBonus, weaponBonus, add_zero]
  | magicWeapon plus =>
    simp only [apply, clamp_eq_self h.total, cost, raised, armorBonus, weaponBonus, add_zero]
  | magicItem item spellLevel casterLevel material xp =>
    simp only [apply, cost, raised, armorBonus, weaponBonus, add_zero]
  | factor multiply divide => cases he
  | equal source => cases he

/-- A factor with a ratio scales what is there. -/
theorem apply_factor {α : Type} [Quantity α] (multiply : ℤ) {divide : ℤ} (hdivide : divide ≠ 0)
    (value : Option α) (held : Enhancements) :
    (factor multiply divide).apply value held =
      (value.map fun v => Quantity.scale v (ofRat (multiply / divide)), held) := by
  have hratio : Rational.fraction multiply divide = .ok (ofRat (multiply / divide)) := by
    rw [Rational.fraction, mixed_eq_ofRat 0 multiply hdivide, mixedNumber,
      if_neg (Int.lt_irrefl 0), Int.cast_zero, zero_add]
  simp only [apply, hratio]

/-- An expression that is no cost raises nothing. -/
theorem bonus_of_not_isCost {e : Expression} (he : e.isCost = false) :
    e.armorBonus = 0 ∧ e.weaponBonus = 0 ∧ e.itemPrice = 0 := by
  cases e with
  | factor multiply divide => exact ⟨rfl, rfl, rfl⟩
  | equal source => exact ⟨rfl, rfl, rfl⟩
  | _ => cases he

theorem raised_of_not_isCost {e : Expression} (he : e.isCost = false) (held : Enhancements) :
    e.raised held = held := by
  obtain ⟨harmor, hweapon, -⟩ := bonus_of_not_isCost he
  rw [raised, harmor, hweapon, add_zero, add_zero]

theorem ratio_of_isCost {e : Expression} (he : e.isCost) : e.ratio = 1 := by
  cases e with
  | factor multiply divide => cases he
  | _ => rfl

/-- Multiplying the money multiplies what it amounts to. -/
theorem multiply_exact {value : Option Money} (hvalue : Given value) {factor : Rational}
    (hfactor : factor.isDefined = true) :
    Given (value.map fun v => Measure.multiply v factor) ∧
      (Lossless (value.toList.flatMap fun v => Measure.multiplySteps v factor) →
        amountOf (value.map fun v => Measure.multiply v factor) =
          amountOf value * factor.toRat) := by
  cases value with
  | none => exact ⟨hvalue, fun _ => (zero_mul _).symm⟩
  | some v =>
    obtain ⟨hv, hdef⟩ := hvalue v rfl
    refine ⟨given_some (hv.multiply factor) ?_, fun h => ?_⟩
    · rw [Measure.isDefined_multiply, hdef]
    · rw [Option.toList_some, List.flatMap_singleton] at h
      exact Measure.amount_multiply Money.isChecked_family hv hfactor h

/-- **One expression** adds to a price or multiplies it. -/
theorem apply_exact {e : Expression} (hratio : ∀ multiply, e ≠ .factor multiply 0)
    (hequal : ∀ source, e ≠ .equal source) {value : Option Money} (hvalue : Given value)
    {held : Enhancements} (h : e.ApplyUncut value held) :
    ∃ next, e.apply value held = (next, e.raised held) ∧ Given next ∧
      amountOf next =
        (amountOf value + ((e.raised held).price - held.price) + e.itemPrice) * e.ratio := by
  obtain ⟨hcut, hsteps⟩ := h
  cases hcost : e.isCost with
  | true =>
    -- a cost is added, or makes up the price
    obtain ⟨m, hadd, hgiven, hamount⟩ :=
      addCost_exact hvalue (wellFormed_cost held e) (isDefined_cost hcost held)
    have hlossless : Lossless (value.toList.flatMap fun v => Measure.addSteps v (e.cost held)) := by
      cases e with
      | factor multiply divide => cases hcost
      | _ => exact hsteps
    refine ⟨some m, by rw [apply_of_isCost hcost hcut, hadd], hgiven, ?_⟩
    have hsum : amountOf (some m) = amountOf value + Measure.amount (e.cost held) :=
      hamount hlossless
    rw [hsum, amount_cost hcut, ratio_of_isCost hcost]
    ring
  | false =>
    cases e with
    | factor multiply divide =>
      -- the ratio is stored without loss, and so is every product
      have hdivide : divide ≠ 0 := fun hzero => hratio multiply (hzero ▸ rfl)
      obtain ⟨hquotient, hmultiply⟩ := lossless_cons.mp hsteps
      obtain ⟨hgiven, hamount⟩ := multiply_exact hvalue (isDefined_ofRat (multiply / divide))
      rw [raised_of_not_isCost hcost]
      refine ⟨_, apply_factor multiply hdivide value held, hgiven, ?_⟩
      have hproduct := hamount hmultiply
      rw [toRat_ofRat hquotient] at hproduct
      rw [sub_self, (bonus_of_not_isCost hcost).2.2, add_zero, add_zero]
      exact hproduct
    | equal source => exact absurd rfl (hequal source)
    | _ => cases hcost

/-! ## All expressions -/

/-- No result is cut when expressions are applied one after the other. -/
def EachUncut : List Expression → Option Money → Enhancements → Prop
  | [], _, _ => True
  | e :: es, value, held =>
    e.ApplyUncut value held ∧ EachUncut es (e.apply value held).1 (e.apply value held).2

instance : ∀ (es : List Expression) (value : Option Money) (held : Enhancements),
    Decidable (EachUncut es value held)
  | [], _, _ => isTrue trivial
  | e :: es, value, held =>
    have := instDecidableEachUncut es (e.apply value held).1 (e.apply value held).2
    inferInstanceAs (Decidable (e.ApplyUncut value held ∧ _))

theorem applyEach_cons {α : Type} [Quantity α] (e : Expression) (es : List Expression)
    (value : Option α) (held : Enhancements) :
    applyEach (e :: es) value held =
      applyEach es (e.apply value held).1 (e.apply value held).2 := rfl

/-- The enhancements after expressions. -/
def raisedAll (held : Enhancements) (es : List Expression) : Enhancements :=
  ⟨held.armor + (es.map armorBonus).sum, held.weapon + (es.map weaponBonus).sum⟩

theorem raisedAll_cons (held : Enhancements) (e : Expression) (es : List Expression) :
    raisedAll held (e :: es) = raisedAll (e.raised held) es := by
  simp only [raisedAll, raised, List.map_cons, List.sum_cons, add_assoc]

/-- Without costs nothing is added. -/
theorem sums_of_not_isCost {es : List Expression} (h : ∀ e ∈ es, e.isCost = false)
    (held : Enhancements) : raisedAll held es = held ∧ (es.map itemPrice).sum = 0 := by
  induction es with
  | nil => exact ⟨by simp [raisedAll], rfl⟩
  | cons e es ih =>
    have he := h e List.mem_cons_self
    obtain ⟨hraised, hprice⟩ := ih fun e' he' => h e' (List.mem_cons_of_mem e he')
    rw [raisedAll_cons, raised_of_not_isCost he, List.map_cons, List.sum_cons, hprice,
      (bonus_of_not_isCost he).2.2, add_zero]
    exact ⟨hraised, rfl⟩

/-- Costs are the expressions that apply first. -/
theorem isCost_eq (e : Expression) : e.isCost = decide (e.priority < 2) := by
  cases e <;> rfl

/-- Costs come first. -/
theorem isCost_eq_false_of_atMost {a b : Expression} (ha : a.isCost = false) (h : atMost a b) :
    b.isCost = false := by
  have hpriority := priority_le_of_atMost h
  rw [isCost_eq, decide_eq_false_iff_not] at *
  omega

/-- **Expressions in their order** add all costs to a price, and then multiply it. -/
theorem applyEach_exact {es : List Expression}
    (hsorted : es.Pairwise fun a b => atMost a b = true)
    (hratio : ∀ multiply, .factor multiply 0 ∉ es) (hequal : ∀ source, .equal source ∉ es) :
    ∀ {value : Option Money} {held : Enhancements}, Given value → EachUncut es value held →
      Given (applyEach es value held).1 ∧
      amountOf (applyEach es value held).1 =
        (amountOf value + ((raisedAll held es).price - held.price) + (es.map itemPrice).sum) *
          (es.map ratio).prod := by
  induction es with
  | nil =>
    intro value held hvalue _
    refine ⟨hvalue, ?_⟩
    simp [applyEach, raisedAll]
  | cons e es ih =>
    intro value held hvalue h
    obtain ⟨happly, hrest⟩ := h
    obtain ⟨hfirst, hsorted⟩ := List.pairwise_cons.mp hsorted
    have hnotEqual : ∀ source, e ≠ .equal source := fun source heq =>
      hequal source (heq ▸ List.mem_cons_self)
    have hnotZero : ∀ multiply, e ≠ .factor multiply 0 := fun multiply heq =>
      hratio multiply (heq ▸ List.mem_cons_self)
    obtain ⟨next, hnext, hgiven, hamount⟩ := apply_exact hnotZero hnotEqual hvalue happly
    rw [hnext] at hrest
    obtain ⟨hgiven', hamount'⟩ := ih hsorted
      (fun multiply hmem => hratio multiply (List.mem_cons_of_mem e hmem))
      (fun source hmem => hequal source (List.mem_cons_of_mem e hmem)) hgiven hrest
    rw [applyEach_cons, hnext]
    refine ⟨hgiven', ?_⟩
    rw [hamount', hamount, raisedAll_cons, List.map_cons, List.sum_cons, List.map_cons,
      List.prod_cons]
    cases hcost : e.isCost with
    | true =>
      -- what the price of the enhancements rises by is what the rest starts from
      rw [ratio_of_isCost hcost]
      ring
    | false =>
      -- only factors follow, so the price of the enhancements and of the items is complete
      obtain ⟨hraised, hprice⟩ := sums_of_not_isCost
        (fun e' he' => isCost_eq_false_of_atMost hcost (hfirst e' he')) held
      rw [raised_of_not_isCost hcost, hraised, hprice, (bonus_of_not_isCost hcost).2.2]
      ring

/-! ## Absent prices and prices among other values -/

/-- A factor without a ratio makes a price absent, and only a cost makes one where there is none. -/
theorem apply_eq_none_iff (e : Expression) (value : Option Money) (held : Enhancements) :
    (e.apply value held).1 = none ↔
      (∃ multiply, e = .factor multiply 0) ∨ value = none ∧ e.isCost = false := by
  cases e with
  | factor multiply divide =>
    by_cases hdivide : divide = 0
    · subst hdivide
      exact iff_of_true rfl (.inl ⟨multiply, rfl⟩)
    · rw [apply_factor multiply hdivide, Option.map_eq_none_iff]
      simp [isCost, hdivide]
  | equal source => simp [apply, isCost]
  | _ => simp [apply, addCost_eq, isCost]

/-- Behind the costs nothing makes a price. -/
theorem applyEach_none {es : List Expression} (h : ∀ e ∈ es, e.isCost = false)
    (held : Enhancements) : (applyEach es (none : Option Money) held).1 = none := by
  induction es generalizing held with
  | nil => rfl
  | cons e es ih =>
    obtain ⟨he, hes⟩ := List.forall_mem_cons.mp h
    rw [applyEach_cons, (apply_eq_none_iff e none held).mpr (.inr ⟨rfl, he⟩)]
    exact ih hes _

/-- **There is no price** if one expression has no ratio, or if there was none and nothing costs. -/
theorem applyEach_eq_none_iff {es : List Expression}
    (hsorted : es.Pairwise fun a b => atMost a b = true) :
    ∀ (value : Option Money) (held : Enhancements), (applyEach es value held).1 = none ↔
      (∃ multiply, .factor multiply 0 ∈ es) ∨ value = none ∧ ∀ e ∈ es, e.isCost = false := by
  induction es with
  | nil => simp [applyEach]
  | cons e es ih =>
    intro value held
    obtain ⟨hfirst, hsorted⟩ := List.pairwise_cons.mp hsorted
    by_cases hzero : ∃ multiply, e = .factor multiply 0
    · -- no cost can make a price behind the factor
      obtain ⟨multiply, rfl⟩ := hzero
      have hrest : ∀ e' ∈ es, e'.isCost = false := fun e' he' =>
        isCost_eq_false_of_atMost rfl (hfirst e' he')
      exact iff_of_true (applyEach_none hrest held) (.inl ⟨multiply, List.mem_cons_self⟩)
    · have hnone := apply_eq_none_iff e value held
      rw [or_iff_right hzero] at hnone
      have hmem : (∃ multiply, .factor multiply 0 ∈ e :: es) ↔
          ∃ multiply, .factor multiply 0 ∈ es := by
        refine exists_congr fun multiply => List.mem_cons.trans (or_iff_right ?_)
        rintro rfl
        exact hzero ⟨multiply, rfl⟩
      rw [applyEach_cons, ih hsorted, hnone, hmem, List.forall_mem_cons, and_assoc]

theorem addCost_value (value : Option Money) (cost : Money) :
    addCost (value.map (Value.measure .money)) cost =
      (addCost value cost).map (Value.measure .money) := by
  cases value <;> rfl

theorem reread_value (v : Money) (source : String) :
    (Quantity.reread (Value.measure .money v) source).getD (Value.measure .money v) =
      Value.measure .money ((Quantity.reread v source).getD v) := by
  have hparse : Quantity.reread (Value.measure .money v) source =
      ((Measure.parse (.standard .money) source).map (Value.measure .money)).toOption := rfl
  have hreread : Quantity.reread v source =
      (Measure.parse (.standard .money) source).toOption := rfl
  rw [hparse, hreread]
  cases Measure.parse (.standard .money) source <;> rfl

/-- Money that is a value among others changes as it does alone. -/
theorem apply_value (e : Expression) (value : Option Money) (held : Enhancements) :
    e.apply (value.map (Value.measure .money)) held =
      ((e.apply value held).1.map (Value.measure .money), (e.apply value held).2) := by
  cases e with
  | factor multiply divide =>
    simp only [apply]
    split <;> cases value <;> rfl
  | equal source =>
    simp only [apply]
    cases value with
    | none => rfl
    | some v => simp [reread_value]
  | _ => simp only [apply, addCost_value]

/-- **Money among other values** comes out as it does alone. -/
theorem applyEach_value (es : List Expression) :
    ∀ (value : Option Money) (held : Enhancements),
      (applyEach es (value.map (Value.measure .money)) held).1 =
        (applyEach es value held).1.map (Value.measure .money) := by
  induction es with
  | nil => exact fun _ _ => rfl
  | cons e es ih =>
    intro value held
    rw [applyEach_cons, applyEach_cons, apply_value]
    exact ih (e.apply value held).1 (e.apply value held).2

/-! ## The price of a list -/

/-- The total in gold; absent money counts as zero. -/
def goldOf (value : Option Money) : ℚ := (value.map fun m => m.inGold.toRat).getD 0

/-- Nothing is cut: not the gold that the price is at first, no result on the way, and not the gold
that it is at last. -/
structure NothingCut (es : List Expression) (start : Option Money) : Prop where
  first : Lossless (start.toList.flatMap Money.goldSteps)
  each : EachUncut (sorted es) start .none
  last : Lossless ((applyAll es start).toList.flatMap Money.goldSteps)

/-- The total in gold is what the money amounts to, if nothing is cut. -/
theorem goldOf_eq {value : Option Money} (hvalue : Given value)
    (h : Lossless (value.toList.flatMap Money.goldSteps)) : goldOf value = amountOf value := by
  cases value with
  | none => rfl
  | some m =>
    rw [Option.toList_some, List.flatMap_singleton] at h
    exact Money.toRat_inGold (hvalue m rfl).1 h

/-- **Stacked prices have a closed form.** Expressions that replace nothing make of a price in gold
the price with 1000 gold pieces for the square of all armor enhancements together, 2000 for the
square of all weapon enhancements together, and the prices of all magic items, times all factors.
There is a price if there was one, or if any expression adds to it, unless a factor has no ratio. -/
theorem stacked_price {es : List Expression} (hequal : ∀ source, .equal source ∉ es)
    {start : Option Money} (hstart : Given start) :
    (applyAll es start = none ↔
      (∃ multiply, .factor multiply 0 ∈ es) ∨ start = none ∧ ∀ e ∈ es, e.isCost = false) ∧
    applyAll es (start.map (Value.measure .money)) =
      (applyAll es start).map (Value.measure .money) ∧
    (NothingCut es start → ∀ price, applyAll es start = some price →
      price.inGold.isDefined = true ∧
      price.inGold.toRat =
        (goldOf start + 1000 * (es.map armorBonus).sum ^ 2 + 2000 * (es.map weaponBonus).sum ^ 2
          + (es.map itemPrice).sum) * (es.map ratio).prod) := by
  have hmem : ∀ {e : Expression}, e ∈ sorted es ↔ e ∈ es := (perm_sorted es).mem_iff
  have hnone : applyAll es start = none ↔
      (∃ multiply, .factor multiply 0 ∈ es) ∨ start = none ∧ ∀ e ∈ es, e.isCost = false := by
    rw [applyAll, applyEach_eq_none_iff (pairwise_sorted es)]
    simp only [hmem]
  refine ⟨hnone, applyEach_value (sorted es) start .none, fun hcut price hprice => ?_⟩
  have hratio : ∀ multiply, .factor multiply 0 ∉ es := fun multiply hzero => by
    rw [hnone.mpr (.inl ⟨multiply, hzero⟩)] at hprice
    cases hprice
  obtain ⟨hgiven, hamount⟩ := applyEach_exact (pairwise_sorted es)
    (fun multiply he => hratio multiply (hmem.mp he)) (fun source he => hequal source (hmem.mp he))
    hstart hcut.each
  have hlast := hcut.last
  rw [← applyAll, hprice] at hgiven hamount
  rw [hprice] at hlast
  obtain ⟨hwell, hdef⟩ := hgiven price rfl
  refine ⟨(Money.isDefined_inGold hwell).trans hdef, ?_⟩
  have hgold : price.inGold.toRat = amountOf (some price) := goldOf_eq hgiven hlast
  rw [hgold, hamount, goldOf_eq hstart hcut.first]
  -- the order of application changes no sum
  simp only [raisedAll, ((perm_sorted es).map _).sum_eq, ((perm_sorted es).map _).prod_eq]
  simp only [Enhancements.price, Enhancements.none]
  push_cast
  ring

/-- Two enhancements of armor, one of weapons and a wand at half price, half as dear again. -/
def outfit : List Expression :=
  [.factor 3 2, .magicArmor 2, .magicItem .wand 0 1 0 3, .magicWeapon 1, .magicArmor 1]

/-- The outfit in the order of application. -/
theorem sorted_outfit : sorted outfit =
    [.magicArmor 1, .magicArmor 2, .magicWeapon 1, .magicItem .wand 0 1 0 3, .factor 3 2] :=
  sorted_eq_of_pairwise (by decide) (by decide +kernel)

/-- The outfit adds 9000 and 2000 gold pieces and, for the wand, seven and a half and fifteen. -/
theorem stacked_price_outfit :
    ∃ price, applyAll outfit (some (Money.gold 7)) = some price ∧
      price.inGold.toRat = (7 + 9000 + 2000 + 45 / 2) * (3 / 2) ∧
      applyAll outfit (some (Value.measure .money (Money.gold 7))) =
        some (Value.measure .money price) := by
  have hstart : Given (some (Money.gold 7)) := given_some (Money.wellFormed_coins _ _) rfl
  have hequal : ∀ source, .equal source ∉ outfit := by simp [outfit]
  obtain ⟨hnone, hvalue, hexact⟩ := stacked_price hequal hstart
  have hcut : NothingCut outfit (some (Money.gold 7)) :=
    { first := by decide +kernel
      each := by
        rw [sorted_outfit]
        decide +kernel
      last := by
        rw [applyAll, sorted_outfit]
        decide +kernel }
  cases hprice : applyAll outfit (some (Money.gold 7)) with
  | none => exact absurd (hnone.mp hprice) (by simp [outfit])
  | some price =>
    rw [hprice] at hvalue
    exact ⟨price, rfl, ((hexact hcut price hprice).2).trans (by decide +kernel), hvalue⟩

/-- A wand whose material is said to be worth minus five gold pieces. -/
def flawed : List Expression := [.magicItem .wand 1 1 (-5) 0]

/-- **A negative material adds nothing**: the wand raises seven gold pieces to 22, its price without
the material, and not to 17. Nothing is cut. -/
theorem negativeMaterial_adds_nothing :
    NothingCut flawed (some (Money.gold 7)) ∧
      (applyAll flawed (some (Money.gold 7))).map (fun price => price.inGold.toRat) = some 22 ∧
      goldOf (some (Money.gold 7)) + (MagicItem.wand.basePrice * 1 * 1 + -5 + 5 * 0) = 17 := by
  have hsorted : sorted flawed = flawed := sorted_eq_of_pairwise (.refl _) (by decide +kernel)
  refine ⟨⟨by decide +kernel, ?_, ?_⟩, ?_, by decide +kernel⟩
  · rw [hsorted]
    decide +kernel
  · rw [applyAll, hsorted]
    decide +kernel
  · rw [applyAll, hsorted]
    decide +kernel

end Tabletop.Expression
