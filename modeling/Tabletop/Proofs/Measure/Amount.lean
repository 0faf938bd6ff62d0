import Mathlib.Tactic.Ring
import Tabletop.Measure.Basic
import Tabletop.Proofs.Measure.Checked
import Tabletop.Proofs.Rational.Exact

/-!
# Exact amounts

What the slots of a measure amount to as a number, with no regard to how it is computed, and the
ways in which amounts get into slots:

* **exactTotal** is the number of base units in some slots; **asBase** computes it
  (`UnitSet.toRat_asBase`);
* slots that are added or scaled **one by one** amount to the sum or the multiple
  (`exactTotal_zipWith_addSlot`, `exactTotal_map`);
* **spread** distributes a total over units and **loses nothing** (`UnitSet.exactTotal_spread`):
  whatever a unit does not keep moves down to the next one, and the last unit keeps all;
* **convert** puts an amount on the family's scale into a set (`UnitSet.exactTotal_convert`).

Beside every computation stands the list of the exact results of its steps (`asBaseSteps`,
`spreadSteps`, …). A statement about a computation assumes that these are **Lossless**; nothing else
is assumed of the numbers.
-/

namespace Tabletop

open Rational

/-! ## Totals of slots -/

/-- The number in a slot; an empty one counts as zero. -/
def slotAmount : Option Rational → ℚ
  | none => 0
  | some amount => amount.toRat

/-- The base units in some slots, exactly. -/
def exactTotal : List MeasureUnit → Slots → ℚ
  | [], _ => 0
  | _ :: _, [] => 0
  | u :: us, slot :: slots => slotAmount slot * u.multiplier / u.divisor + exactTotal us slots

theorem exactTotal_none (units rest : List MeasureUnit) :
    exactTotal units (rest.map fun _ => none) = 0 := by
  induction units generalizing rest with
  | nil => rfl
  | cons u us ih =>
    cases rest with
    | nil => rfl
    | cons _ rest =>
      rw [List.map_cons, exactTotal, ih rest, slotAmount, zero_mul, zero_div, add_zero]

/-- What fills the slot of the base unit is the total. -/
theorem exactTotal_set_base (total : Rational) {units : List MeasureUnit}
    (h : ∃ u ∈ units, u.isBase = true) :
    exactTotal units
      ((units.map fun _ => none).set (units.findIdx MeasureUnit.isBase) (some total)) =
      total.toRat := by
  induction units with
  | nil =>
    obtain ⟨u, hu, -⟩ := h
    cases hu
  | cons u us ih =>
    rw [List.findIdx_cons, List.map_cons]
    cases hbase : u.isBase with
    | true =>
      -- the base unit is one base unit large
      have hratio : u.multiplier = 1 ∧ u.divisor = 1 := by simpa [MeasureUnit.isBase] using hbase
      rw [cond_true, List.set_cons_zero, exactTotal, slotAmount, exactTotal_none, hratio.1,
        hratio.2]
      simp
    | false =>
      obtain ⟨v, hv, hv'⟩ := h
      rcases List.mem_cons.mp hv with rfl | hv
      · -- the unit passed over is not the base unit
        rw [hv'] at hbase
        cases hbase
      · rw [cond_false, List.set_cons_succ, exactTotal, slotAmount, ih ⟨v, hv, hv'⟩]
        simp

namespace Slots

/-- The exact results of multiplying all amounts by a number. -/
def scaledSteps (slots : Slots) (factor : ℚ) : List ℚ :=
  slots.filterMap (Option.map fun amount => amount.toRat * factor)

/-- The exact results of the steps of adding two slots. -/
def slotSteps : Option Rational → Option Rational → List ℚ
  | some a, some b => [a.toRat + b.toRat]
  | _, _ => []

/-- The exact results of the steps of adding slots one by one. -/
def sumSteps (xs ys : Slots) : List ℚ := (List.zipWith slotSteps xs ys).flatten

end Slots

/-- Scaling all slots scales the total. -/
theorem exactTotal_map {f : Rational → Rational} {factor : ℚ} {slots : Slots}
    (h : ∀ amount, some amount ∈ slots → (f amount).toRat = amount.toRat * factor)
    (units : List MeasureUnit) :
    exactTotal units (slots.map (Option.map f)) = exactTotal units slots * factor := by
  induction slots generalizing units with
  | nil => cases units <;> rw [List.map_nil, exactTotal, zero_mul]
  | cons slot slots ih =>
    cases units with
    | nil => rw [exactTotal, exactTotal, zero_mul]
    | cons u us =>
      have hslot : slotAmount (slot.map f) = slotAmount slot * factor := by
        cases slot with
        | none => exact (zero_mul factor).symm
        | some amount => exact h amount List.mem_cons_self
      rw [List.map_cons, exactTotal, exactTotal, hslot,
        ih (fun amount ha => h amount (List.mem_cons_of_mem slot ha)) us]
      ring

/-- Two slots together hold the sum of both; an empty one holds nothing. -/
theorem slotAmount_addSlot {x y : Option Rational} (h : Lossless (Slots.slotSteps x y)) :
    slotAmount (Measure.addSlot x y) = slotAmount x + slotAmount y := by
  cases x with
  | none => exact (zero_add _).symm
  | some a =>
    cases y with
    | none => exact (add_zero _).symm
    | some b =>
      obtain ⟨hsum, -⟩ := lossless_cons.mp h
      exact toRat_add hsum

/-- The totals of slots add up. -/
theorem exactTotal_zipWith_addSlot {xs ys : Slots} (hlength : xs.length = ys.length)
    (h : Lossless (xs.sumSteps ys)) (units : List MeasureUnit) :
    exactTotal units (List.zipWith Measure.addSlot xs ys) =
      exactTotal units xs + exactTotal units ys := by
  induction xs generalizing ys units with
  | nil =>
    obtain rfl : ys = [] := List.length_eq_zero_iff.mp hlength.symm
    cases units <;> exact (add_zero _).symm
  | cons x xs ih =>
    cases ys with
    | nil => cases hlength
    | cons y ys =>
      obtain ⟨hslot, hrest⟩ := lossless_append.mp h
      cases units with
      | nil => exact (add_zero _).symm
      | cons u us =>
        rw [List.zipWith_cons_cons, exactTotal, exactTotal, exactTotal, slotAmount_addSlot hslot,
          ih (by simpa using hlength) hrest us]
        ring

namespace UnitSet

/-- The exact results of the steps that add slots to a total. -/
def totalSteps : Rational → List MeasureUnit → Slots → List ℚ
  | _, [], _ => []
  | _, _ :: _, [] => []
  | total, _ :: us, none :: slots => totalSteps total us slots
  | total, u :: us, some amount :: slots =>
    amount.scaleSteps u.multiplier u.divisor ++ (total.toRat + (u.asBase amount).toRat) ::
      totalSteps (total.add (u.asBase amount)) us slots

/-- The exact results of the steps of `asBase`. -/
def asBaseSteps (s : UnitSet) (slots : Slots) : List ℚ := totalSteps .zero s.units slots

/-- Adding slots to a total one after the other adds what they amount to. -/
theorem toRat_foldl_asBase {units : List MeasureUnit} (hdiv : ∀ u ∈ units, u.divisor ≠ 0) :
    ∀ {slots : Slots} {total : Rational}, Lossless (totalSteps total units slots) →
      (((units.zip slots).filterMap fun (u, slot) => slot.map u.asBase).foldl Rational.add
        total).toRat = total.toRat + exactTotal units slots := by
  induction units with
  | nil =>
    intro slots total _
    rw [exactTotal, add_zero]
    rfl
  | cons u us ih =>
    intro slots total h
    have hu : u.divisor ≠ 0 := hdiv u List.mem_cons_self
    have hus : ∀ v ∈ us, v.divisor ≠ 0 := fun v hv => hdiv v (List.mem_cons_of_mem u hv)
    cases slots with
    | nil =>
      rw [exactTotal, add_zero]
      rfl
    | cons slot slots =>
      cases slot with
      | none =>
        rw [exactTotal, slotAmount, zero_mul, zero_div, zero_add]
        exact ih hus h
      | some amount =>
        rw [totalSteps, lossless_append, lossless_cons] at h
        obtain ⟨hscale, hadd, hrest⟩ := h
        have hbase : (u.asBase amount).toRat = amount.toRat * u.multiplier / u.divisor :=
          toRat_scaleBy hu hscale
        rw [exactTotal, slotAmount, ← add_assoc, ← hbase, ← toRat_add hadd]
        exact ih hus hrest

theorem isDefined_foldl_add (amounts : List Rational) :
    ∀ {total : Rational}, total.isDefined = true →
      (amounts.foldl Rational.add total).isDefined = true := by
  induction amounts with
  | nil => exact id
  | cons amount amounts ih =>
    intro total h
    exact ih (by rw [isDefined_add, h, Bool.true_or])

/-- A total of slots is always defined. -/
theorem isDefined_asBase (s : UnitSet) (slots : Slots) : (s.asBase slots).isDefined = true :=
  isDefined_foldl_add _ rfl

/-- **`asBase` totals exactly.** -/
theorem toRat_asBase {s : UnitSet} (hs : s.IsChecked) {slots : Slots}
    (h : Lossless (s.asBaseSteps slots)) : (s.asBase slots).toRat = exactTotal s.units slots := by
  rw [asBase, toRat_foldl_asBase (fun u hu => (hs.units_pos u hu).2.ne') h, toRat_zero, zero_add]

/-! ## Spreading a total over units -/

/-- The exact results of the steps of `spread`. -/
def spreadSteps (level : ℤ) : List MeasureUnit → Rational → List ℚ
  | [], _ => []
  | [unit], total => total.scaleSteps unit.divisor unit.multiplier
  | unit :: next :: rest, total =>
    let amount := unit.fromBase total
    total.scaleSteps unit.divisor unit.multiplier ++
      if (amount.den : ℤ) < threshold level unit next then []
      else if amount.whole > 0 then
        let whole := Rational.ofInt amount.truncated
        let left := amount.subtract whole
        amount.subtractSteps whole ++ left.scaleSteps unit.multiplier unit.divisor ++
          spreadSteps level (next :: rest) (unit.asBase left)
      else
        amount.scaleSteps unit.multiplier unit.divisor ++
          spreadSteps level (next :: rest) (unit.asBase amount)

/-- Spreading fills one slot for every unit. -/
theorem length_spread (level : ℤ) :
    ∀ (units : List MeasureUnit) (total : Rational),
      (spread level units total).length = units.length
  | [], _ => rfl
  | [_], _ => rfl
  | unit :: next :: rest, total => by
    rw [spread]
    split
    · simp
    · split
      · rw [List.length_cons, length_spread level (next :: rest)]
        rfl
      · rw [List.length_cons, length_spread level (next :: rest)]
        rfl

/-- An amount counted in a unit and back in base units is the same amount. -/
theorem mul_div_ratio {u : MeasureUnit} (hm : 0 < u.multiplier) (hd : 0 < u.divisor) (q : ℚ) :
    q * u.divisor / u.multiplier * u.multiplier / u.divisor = q := by
  have hm' : (u.multiplier : ℚ) ≠ 0 := by exact_mod_cast hm.ne'
  have hd' : (u.divisor : ℚ) ≠ 0 := by exact_mod_cast hd.ne'
  field_simp

/-- **Spreading loses nothing**: the slots amount to the total. -/
theorem exactTotal_spread {level : ℤ} :
    ∀ {units : List MeasureUnit} {total : Rational}, units ≠ [] →
      (∀ u ∈ units, 0 < u.multiplier ∧ 0 < u.divisor) →
      Lossless (spreadSteps level units total) →
      exactTotal units (spread level units total) = total.toRat
  | [], _, hne, _, _ => absurd rfl hne
  | [unit], total, _, hpos, h => by
    obtain ⟨hm, hd⟩ := hpos unit List.mem_cons_self
    have hfrom : (unit.fromBase total).toRat = total.toRat * unit.divisor / unit.multiplier :=
      toRat_scaleBy hm.ne' h
    rw [spread, exactTotal, slotAmount, hfrom, mul_div_ratio hm hd]
    exact add_zero _
  | unit :: next :: rest, total, _, hpos, h => by
    obtain ⟨hm, hd⟩ := hpos unit List.mem_cons_self
    have hpos' : ∀ u ∈ next :: rest, 0 < u.multiplier ∧ 0 < u.divisor :=
      fun u hu => hpos u (List.mem_cons_of_mem unit hu)
    rw [spreadSteps, lossless_append] at h
    obtain ⟨hscale, h⟩ := h
    have hfrom : (unit.fromBase total).toRat = total.toRat * unit.divisor / unit.multiplier :=
      toRat_scaleBy hm.ne' hscale
    have hback : (unit.fromBase total).toRat * unit.multiplier / unit.divisor = total.toRat := by
      rw [hfrom, mul_div_ratio hm hd]
    rw [spread]
    split at h
    · -- the unit keeps all that is left
      rename_i hkeep
      rw [if_pos hkeep, exactTotal, slotAmount, hback, exactTotal, slotAmount, exactTotal_none]
      simp
    · rename_i hkeep
      rw [if_neg hkeep]
      split at h
      · -- the whole part stays, the fraction moves down
        rename_i hwhole
        rw [if_pos hwhole]
        rw [lossless_append, lossless_append] at h
        obtain ⟨⟨hsub, hdown⟩, hrest⟩ := h
        rw [exactTotal, slotAmount, exactTotal_spread (List.cons_ne_nil _ _) hpos' hrest,
          MeasureUnit.asBase, toRat_scaleBy hd.ne' hdown, toRat_subtract hsub, sub_mul, sub_div,
          add_sub_cancel, hback]
      · -- all moves down
        rename_i hwhole
        rw [if_neg hwhole]
        rw [lossless_append] at h
        obtain ⟨hdown, hrest⟩ := h
        have hnext : (unit.asBase (unit.fromBase total)).toRat = total.toRat := by
          rw [← hback]
          exact toRat_scaleBy hd.ne' hdown
        rw [exactTotal, slotAmount, zero_mul, zero_div, zero_add,
          exactTotal_spread (List.cons_ne_nil _ _) hpos' hrest, hnext]

/-! ## Moving an amount into a set -/

/-- The exact results of the steps of `convert`. -/
def convertSteps (s : UnitSet) (normalized : Rational) (level : ℤ) (simplify : Bool) : List ℚ :=
  normalized.scaleSteps s.multiplier s.divisor ++
    if simplify then spreadSteps level s.units (normalized.scaleBy s.multiplier s.divisor) else []

theorem length_convert (s : UnitSet) (normalized : Rational) (level : ℤ) (simplify : Bool) :
    (s.convert normalized level simplify).length = s.units.length := by
  unfold convert
  cases simplify with
  | true => exact length_spread level _ _
  | false => simp

/-- **Conversion into a set is exact**, spread or not. -/
theorem exactTotal_convert {s : UnitSet} (hs : s.IsChecked) {normalized : Rational} {level : ℤ}
    {simplify : Bool} (h : Lossless (s.convertSteps normalized level simplify)) :
    exactTotal s.units (s.convert normalized level simplify) =
      normalized.toRat * s.multiplier / s.divisor := by
  obtain ⟨hscale, hspread⟩ := lossless_append.mp h
  rw [← toRat_scaleBy hs.divisor_pos.ne' hscale]
  unfold convert
  cases simplify with
  | true => exact exactTotal_spread hs.units_ne_nil hs.units_pos hspread
  | false => exact exactTotal_set_base _ hs.exists_base

end UnitSet

end Tabletop
