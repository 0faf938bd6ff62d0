import Tabletop.Proofs.Measure.Standard
import Tabletop.Proofs.Rational.Cut

/-!
# Amounts printed and read back

Outside durations no two sets of a standard family share a spelling, so both texts of a measure are
read back into its own set.

* What a text leaves out are zeros. Without them the slots amount to the same
  (`Measure.normalized_told`), even where sums are cut on the way;
* the **short text** is made of pairs like the full one, with the shortest spelling of every unit
  (`Measure.parse_shortText`);
* **both texts are read back** (`Measure.printed_reads_back`) in the set of the measure, with the same
  amount in every slot, the same normalized amount and the same text.
-/

namespace Tabletop

open Rational

/-! ## What zeros amount to -/

namespace UnitSet

variable {s : UnitSet} {slots : Slots}

/-- What a unit has in base units is not negative. -/
theorem toRat_asBase_nonneg {u : MeasureUnit} (hu : 0 < u.multiplier ∧ 0 < u.divisor)
    {amount : Rational} (hdef : amount.isDefined = true) (h : 0 ≤ amount.toRat) :
    (u.asBase amount).isDefined = true ∧ 0 ≤ (u.asBase amount).toRat := by
  have hmul : (0 : ℚ) ≤ u.multiplier := by exact_mod_cast hu.1.le
  have hdiv : (0 : ℚ) ≤ u.divisor := by exact_mod_cast hu.2.le
  rw [MeasureUnit.asBase, scaleBy, multiplyInt_eq_ofRat hdef,
    divideInt_eq_ofRat (isDefined_ofRat _) hu.2.ne']
  exact ⟨isDefined_ofRat _,
    toRat_ofRat_nonneg (div_nonneg (toRat_ofRat_nonneg (mul_nonneg h hmul)) hdiv)⟩

/-- **Totals with and without zeros** are alike. -/
theorem sumsAlike_counted {units : List MeasureUnit}
    (hunits : ∀ u ∈ units, 0 < u.multiplier ∧ 0 < u.divisor) :
    ∀ {slots : Slots}, (∀ amount, some amount ∈ slots →
        amount.isDefined = true ∧ 0 ≤ amount.toRat) →
      ∀ {total total' : Rational}, SumsAlike total total' →
        SumsAlike
          (((units.zip slots.counted).filterMap fun (u, slot) => slot.map u.asBase).foldl
            Rational.add total)
          (((units.zip slots).filterMap fun (u, slot) => slot.map u.asBase).foldl
            Rational.add total') := by
  induction units with
  | nil => exact fun _ _ _ h => h
  | cons u us ih =>
    intro slots hslots total total' h
    have hu := hunits u List.mem_cons_self
    have hus : ∀ v ∈ us, 0 < v.multiplier ∧ 0 < v.divisor :=
      fun v hv => hunits v (List.mem_cons_of_mem u hv)
    cases slots with
    | nil => exact h
    | cons slot slots =>
      have hrest := @ih hus slots fun amount ha => hslots amount (List.mem_cons_of_mem slot ha)
      cases slot with
      | none => exact hrest h
      | some amount =>
        obtain ⟨hdef, hnonneg⟩ := hslots amount List.mem_cons_self
        cases hnull : amount.isNull with
        | true =>
          have hzero := asBase_of_isNull hu.2.ne' hnull
          simpa [Slots.counted, hnull, hzero] using hrest h.add_null
        | false =>
          obtain ⟨hdef', hnonneg'⟩ := toRat_asBase_nonneg hu hdef hnonneg
          simpa [Slots.counted, hnull] using hrest (h.add hdef' hnonneg')

/-- **What is told amounts to the same** on the scale of the family. -/
theorem scaleBy_asBase_told (hs : s.IsChecked)
    (hslots : ∀ amount, some amount ∈ slots → amount.isDefined = true ∧ 0 ≤ amount.toRat) :
    (s.asBase (s.told slots)).scaleBy s.divisor s.multiplier =
      (s.asBase slots).scaleBy s.divisor s.multiplier := by
  by_cases hnone : ∀ slot ∈ slots.counted, slot = none
  · rw [asBase_told_of_null hs hnone]
  · rw [told, if_neg hnone]
    exact (sumsAlike_counted hs.units_pos hslots SumsAlike.zero).scaleBy_eq hs.divisor_pos _

theorem getD_of_zeros (h : ∀ amount, some amount ∈ slots → amount = .zero) (unit : ℕ) :
    (slots[unit]?.join).getD .zero = .zero := by
  rcases hslot : slots[unit]? with _ | _ | amount
  · rfl
  · rfl
  · exact h amount (List.mem_of_getElem? hslot)

/-- **Every slot tells its amount**, where zero and nothing given are the same. -/
theorem getD_told (hslots : ∀ amount, some amount ∈ slots → amount.InLowestTerms) (unit : ℕ) :
    ((s.told slots)[unit]?.join).getD .zero = (slots[unit]?.join).getD .zero := by
  by_cases hnone : ∀ slot ∈ slots.counted, slot = none
  · -- zeros only
    rw [getD_of_zeros fun amount hamount => ?_, getD_of_zeros fun amount hamount => ?_]
    · refine (hslots amount hamount).eq_zero_of_isNull ?_
      by_contra hnull
      have hcounted :=
        hnone _ (Slots.some_mem_counted.mpr ⟨hamount, Bool.not_eq_true _ ▸ hnull⟩)
      cases hcounted
    · rw [told, if_pos hnone] at hamount
      rcases List.mem_or_eq_of_mem_set hamount with hmem | heq
      · simp at hmem
      · exact Option.some.inj heq
  · rw [told, if_neg hnone, Slots.counted, List.getElem?_map]
    rcases hslot : slots[unit]? with _ | _ | amount
    · rfl
    · rfl
    · cases hnull : amount.isNull with
      | true =>
        rw [(hslots amount (List.mem_of_getElem? hslot)).eq_zero_of_isNull hnull]
        rfl
      | false => simp [Option.filter, hnull]

end UnitSet

/-! ## Short texts -/

namespace Measure

variable {d : Dimension} {index : ℕ} {s : UnitSet} {slots : Slots}

/-- **What is told has the normalized amount** of the measure. -/
theorem normalized_told (hset : d.family.sets[index]? = some s)
    (hslots : ∀ amount, some amount ∈ slots → amount.isDefined = true ∧ 0 ≤ amount.toRat)
    (level level' : ℤ) :
    (⟨some index, s.told slots, level'⟩ : Measure (.standard d)).normalized =
      (⟨some index, slots, level⟩ : Measure (.standard d)).normalized := by
  have hs : s.IsChecked := d.isChecked_family s (List.mem_of_getElem? hset)
  rw [normalized, normalized, activeSet_inSet (k := .standard d) hset,
    activeSet_inSet (k := .standard d) hset]
  exact UnitSet.scaleBy_asBase_told hs hslots

/-- **The text** is read back as what it tells. -/
theorem parse_text (hd : d ≠ .duration) (hset : d.family.sets[index]? = some s)
    (hlength : slots.length = s.units.length)
    (hslots : ∀ amount, some amount ∈ slots → amount.InLowestTerms ∧ amount.negative = false)
    (level : ℤ) :
    parse (.standard d) (⟨some index, slots, level⟩ : Measure (.standard d)).text =
      .ok ⟨some index, s.told slots, d.level⟩ := by
  refine parse_text_of_first hset hlength (fun amount hamount => (hslots amount hamount).1)
    (fun amount hamount => (hslots amount hamount).2) (fun p hp => ?_) level
  obtain ⟨unit, u, hu, hamount, hname⟩ := mem_pairs_iff.mp (List.mem_of_mem_head? hp)
  exact readUnit_own_first hset hu (hname ▸ u.spelling_mem_names p.1) fun h => hd h.1

/-- **The short text** is read back as what it tells. -/
theorem parse_shortText (hd : d ≠ .duration) (hset : d.family.sets[index]? = some s)
    (hlength : slots.length = s.units.length)
    (hslots : ∀ amount, some amount ∈ slots → amount.InLowestTerms ∧ amount.negative = false)
    (level : ℤ) :
    parse (.standard d) (⟨some index, slots, level⟩ : Measure (.standard d)).shortText =
      .ok ⟨some index, s.told slots, d.level⟩ := by
  by_cases hnone : ∀ slot ∈ slots.counted, slot = none
  · -- zero in all is written alike in both texts
    rw [← parse_text hd hset hlength hslots level, shortText, text, render_of_null _ hset hnone,
      render_of_null _ hset hnone]
  · have hname : ∀ (u : MeasureUnit) (_ : Rational), u.shortest ∈ u.names :=
      fun u _ => u.shortest_mem_names
    have hcounted : slots.counted.length = s.units.length := by
      rw [Slots.counted, List.length_map, hlength]
    have hamounts : ∀ amount, some amount ∈ slots.counted →
        amount.InLowestTerms ∧ amount.negative = false :=
      fun amount hamount => hslots amount (Slots.some_mem_counted.mp hamount).1
    have hne : pairsBy (fun u _ => u.shortest) s.units slots.counted ≠ [] :=
      mt (pairsBy_eq_nil_iff hcounted).mp hnone
    have hgiven := giveAll_pairs_undefined (k := .standard d) d.legible hset hname hcounted
      (fun amount hamount => (hamounts amount hamount).2) hne fun p hp => ?_
    · have hwritable := writable_pairsBy (k := .standard d) hname hset
        fun amount hamount => (hamounts amount hamount).1
      have htext : ' ' :: (shortText (k := .standard d) ⟨some index, slots, level⟩).toList =
          pairsText (pairsBy (fun u _ => u.shortest) s.units slots.counted) :=
        toList_render (k := .standard d) (fun _ _ _ => rfl) hset hlength hnone level
      rw [parse_pairs (k := .standard d) d.legible hwritable hne htext, hgiven, UnitSet.told,
        if_neg hnone]
      rfl
    · obtain ⟨unit, u, hu, hamount, hp⟩ := mem_pairsBy_iff.mp (List.mem_of_mem_head? hp)
      exact readUnit_own_first hset hu (hp ▸ u.shortest_mem_names) fun h => hd h.1

/-- **Printed amounts are read back** from both texts: in the same set, with the same amount in every
slot, and so with the same normalized amount and the same text. -/
theorem printed_reads_back (hd : d ≠ .duration) {m : Measure (.standard d)} (hm : m.WellFormed)
    (hdef : m.isDefined = true)
    (hslots : ∀ amount, some amount ∈ m.slots → amount.InLowestTerms ∧ amount.negative = false) :
    ∀ source ∈ [m.text, m.shortText], ∃ n, parse (.standard d) source = .ok n ∧
      n.set = m.set ∧ n.slots.length = m.slots.length ∧
      (∀ unit, (n.get unit).getD .zero = (m.get unit).getD .zero) ∧
      n.normalized = m.normalized ∧ n.text = m.text := by
  cases hm with
  | undefined => cases hdef
  | @inSet index s slots level hset hlength =>
    have hs : s.IsChecked := d.isChecked_family s (List.mem_of_getElem? hset)
    have hterms : ∀ amount, some amount ∈ slots → amount.InLowestTerms :=
      fun amount hamount => (hslots amount hamount).1
    intro source hsource
    refine ⟨⟨some index, s.told slots, d.level⟩, ?_, rfl, ?_, UnitSet.getD_told hterms,
      normalized_told hset (fun amount hamount => ?_) _ _,
      text_told (k := .standard d) hset hs hlength _ _⟩
    · rcases List.mem_pair.mp hsource with rfl | rfl
      · exact parse_text hd hset hlength hslots level
      · exact parse_shortText hd hset hlength hslots level
    · exact (UnitSet.length_told hlength).trans hlength.symm
    · obtain ⟨hlowest, hsign⟩ := hslots amount hamount
      exact ⟨hlowest.isDefined, Rational.toRat_nonneg hsign⟩

/-- A gallon, no pints, two and a half cups and three ounces. -/
def jug : Measure (.standard .volume) :=
  ⟨some 2, [some .one, none, some .zero, some ⟨false, 2, 1, 2⟩, some ⟨false, 3, 0, 1⟩], 5⟩

theorem printed_reads_back_jug :
    jug.text = "1 gallon 2 1/2 cups 3 ounces" ∧ jug.shortText = "1 gallon 2 1/2 cup 3 oz" ∧
      ∀ source ∈ [jug.text, jug.shortText], ∃ n, parse (.standard .volume) source = .ok n ∧
        n.set = jug.set ∧ n.slots.length = jug.slots.length ∧
        (∀ unit, (n.get unit).getD .zero = (jug.get unit).getD .zero) ∧
        n.normalized = jug.normalized ∧ n.text = jug.text := by
  refine ⟨by decide +kernel, by decide +kernel, ?_⟩
  refine printed_reads_back (by decide) (.inSet rfl rfl) rfl ?_
  intro amount hamount
  obtain rfl | rfl | rfl | rfl : amount = .one ∨ amount = .zero ∨ amount = ⟨false, 2, 1, 2⟩ ∨
      amount = ⟨false, 3, 0, 1⟩ := by simpa [jug] using hamount
  all_goals decide

end Measure

end Tabletop
