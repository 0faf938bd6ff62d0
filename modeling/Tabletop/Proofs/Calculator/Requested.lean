import Tabletop.Calculator.Basic
import Tabletop.Proofs.Measure.Defined
import Tabletop.Proofs.Measure.Greedy
import Tabletop.Proofs.Measure.Standard

/-!
# Units asked for

A calculation can be asked to bring a measure into a set. Does the amount then decide what is
printed, whatever units it was written in?

* amounts that are read are never negative (`Measure.areGiven_of_parse`), so the texts of measures
  in one set are alike **exactly if their amounts other than zero are**
  (`Measure.textIn_eq_textIn_iff`);
* **UnitSet.IsAsked** is the form asked for: all in base units, or greedy slots. It depends on the
  amount alone, and a measure of another set is brought into it (`UnitSet.isAsked_convert`);
* a measure that is in the set already **stays as it was written**, and misses the form asked for: a
  mile in feet is still a mile, and 5280 feet are not simplified to one, though they are if no set is
  asked for (`Calculator.requested_units_mile`). So two inputs of one amount are printed alike exactly
  if the slots shown are, be it those asked for or those written (`Calculator.requested_units`).
-/

namespace Tabletop

open Rational

/-! ## Amounts that are given -/

/-- Amounts that can be given in a text: none is undefined or negative. -/
def Slots.AreGiven (slots : Slots) : Prop :=
  ∀ amount, some amount ∈ slots → amount.isDefined = true ∧ amount.negative = false

/-- Sums of amounts that are given are not negative. -/
theorem Rational.negative_add {r s : Rational} (hr : r.isDefined = true ∧ r.negative = false)
    (hs : s.isDefined = true ∧ s.negative = false) :
    (r.add s).isDefined = true ∧ (r.add s).negative = false := by
  have hsum : 0 ≤ r.toRat + s.toRat := add_nonneg (toRat_nonneg hr.2) (toRat_nonneg hs.2)
  rw [add_eq_ofRat hr.1 hs.1, negative_ofRat, decide_eq_false_iff_not, Rat.num_neg]
  exact ⟨isDefined_ofRat _, not_lt.mpr hsum⟩

/-- Slots without negative amounts have a total that is not negative. -/
theorem exactTotal_nonneg {units : List MeasureUnit}
    (hunits : ∀ u ∈ units, 0 < u.multiplier ∧ 0 < u.divisor) :
    ∀ {slots : Slots}, (∀ amount, some amount ∈ slots → 0 ≤ amount.toRat) →
      0 ≤ exactTotal units slots := by
  induction units with
  | nil => exact fun _ => le_rfl
  | cons u us ih =>
    intro slots hslots
    cases slots with
    | nil => exact le_rfl
    | cons slot slots =>
      have hrest := ih (fun v hv => hunits v (List.mem_cons_of_mem u hv))
        fun amount ha => hslots amount (List.mem_cons_of_mem slot ha)
      have hslot : 0 ≤ slotAmount slot := by
        cases slot with
        | none => exact le_rfl
        | some amount => exact hslots amount List.mem_cons_self
      have hsize := (MeasureUnit.size_pos (hunits u List.mem_cons_self)).le
      rw [exactTotal, mul_div_assoc]
      exact add_nonneg (mul_nonneg hslot hsize) hrest

namespace Measure

variable {k : Kind} {m : Measure k}

/-- **Parsing gives no negative amounts.** -/
theorem areGiven_of_parse {source : String} (h : parse k source = .ok m) : m.slots.AreGiven := by
  obtain ⟨rest, hread⟩ := exists_read_of_parse h
  exact forall_of_read (fun _ _ hr hs => negative_add hr hs)
    (fun hamount hsign => ⟨Rational.isDefined_of_read hamount, hsign⟩) hread

/-- **A measure that was given** does not amount to less than nothing. -/
theorem amount_nonneg (hk : k.family.IsChecked) (hm : m.WellFormed) (h : m.slots.AreGiven) :
    0 ≤ m.amount := by
  cases hm with
  | undefined => exact le_rfl
  | @inSet index s slots level hset =>
    have hs := hk s (List.mem_of_getElem? hset)
    have htotal : 0 ≤ exactTotal s.units slots :=
      exactTotal_nonneg hs.units_pos fun amount ha => toRat_nonneg (h amount ha).2
    have hmul : (0 : ℚ) ≤ s.multiplier := by exact_mod_cast hs.multiplier_pos.le
    have hdiv : (0 : ℚ) ≤ s.divisor := by exact_mod_cast hs.divisor_pos.le
    rw [amount_inSet hset]
    exact div_nonneg (mul_nonneg htotal hdiv) hmul

end Measure

/-! ## What a text tells apart -/

/-- Slots that a text can give to the set: one for every unit, and no amount is cut or negative. -/
structure UnitSet.IsFilled (s : UnitSet) (slots : Slots) : Prop where
  length_eq : slots.length = s.units.length
  inLowestTerms : ∀ amount, some amount ∈ slots → amount.InLowestTerms
  areGiven : slots.AreGiven

namespace UnitSet

variable {s : UnitSet} {slots : Slots}

theorem counted_eq_replicate (h : ∀ slot ∈ slots.counted, slot = none) :
    slots.counted = List.replicate slots.length none := by
  rw [List.eq_replicate_iff]
  exact ⟨List.length_map _, h⟩

/-- What is told counts what was given. -/
theorem counted_told (hslots : slots.length = s.units.length) :
    (s.told slots).counted = slots.counted := by
  by_cases hnone : ∀ slot ∈ slots.counted, slot = none
  · have hzero : ∀ slot ∈ (s.told slots).counted, slot = none := by
      rw [told, if_pos hnone]
      intro slot hslot
      obtain ⟨given, hgiven, rfl⟩ := List.mem_map.mp hslot
      rcases List.mem_or_eq_of_mem_set hgiven with hmem | rfl
      · obtain ⟨u, -, rfl⟩ := List.mem_map.mp hmem
        rfl
      · rfl
    rw [counted_eq_replicate hnone, counted_eq_replicate hzero, length_told hslots, hslots]
  · rw [told, if_neg hnone, Slots.counted_counted]

end UnitSet

namespace Measure

variable {d : Dimension} {index : ℕ} {s : UnitSet} {a b : Slots}

/-- The text of slots in the set at `index`; no level matters to it. -/
def textIn (d : Dimension) (index : ℕ) (slots : Slots) : String :=
  (⟨some index, slots, 1⟩ : Measure (.standard d)).text

/-- Reading the text of filled slots into the empty slots of their set gives what it tells. -/
theorem readOnto_textIn (hset : d.family.sets[index]? = some s) (ha : s.IsFilled a) (level : ℤ) :
    ((⟨some index, s.units.map fun _ => none, level⟩ : Measure (.standard d)).readOnto
      (' ' :: (textIn d index a).toList)).1 = ⟨some index, s.told a, level⟩ := by
  have hs : s.IsChecked := d.isChecked_family s (List.mem_of_getElem? hset)
  have hsign : ∀ amount, some amount ∈ s.told a → amount.negative = false := by
    intro amount hamount
    rcases UnitSet.some_mem_told hamount with hmem | rfl
    · exact (ha.areGiven amount hmem).2
    · rfl
  have hunits : s.units = [] ++ s.units := rfl
  have hgiveAll := giveAll_pairs (k := .standard d) d.legible hset MeasureUnit.spelling_mem_names
    hunits (List.length_nil.trans List.length_nil.symm) (UnitSet.length_told ha.length_eq) hsign
    level
  have hread := readOnto_pairs (k := .standard d) d.legible (writable_told hset ha.inLowestTerms)
    (m := ⟨some index, s.units.map fun _ => none, level⟩)
    (congrArg Text.trimStart (toList_text (k := .standard d) hset hs ha.length_eq 1))
  rw [List.nil_append] at hgiveAll
  change giveAll _ (pairs s.units (s.told a)) = _ at hgiveAll
  rw [hgiveAll] at hread
  obtain ⟨rest, hread, -⟩ := hread
  rw [textIn, hread]
  rfl

/-- **Texts of one set** are alike exactly if the amounts other than zero are. -/
theorem textIn_eq_textIn_iff (hset : d.family.sets[index]? = some s) (ha : s.IsFilled a)
    (hb : s.IsFilled b) : textIn d index a = textIn d index b ↔ a.counted = b.counted := by
  have hs : s.IsChecked := d.isChecked_family s (List.mem_of_getElem? hset)
  constructor
  · intro htext
    have hread := readOnto_textIn hset ha 1
    rw [htext, readOnto_textIn hset hb] at hread
    rw [← UnitSet.counted_told ha.length_eq, ← UnitSet.counted_told hb.length_eq]
    exact congrArg (fun m => m.slots.counted) hread.symm
  · intro hcounted
    have htold : s.told a = s.told b := by rw [UnitSet.told, UnitSet.told, hcounted]
    have htext := toList_text (k := .standard d) hset hs ha.length_eq 1
    rw [htold, ← toList_text (k := .standard d) hset hs hb.length_eq 1] at htext
    exact String.toList_inj.mp (List.cons.inj htext).2

end Measure

/-! ## The form asked for -/

namespace UnitSet

/-- **The form asked for** of a total in base units: all of it for the base unit, or spread greedily
over the units. -/
def IsAsked (s : UnitSet) (level : ℤ) (total : ℚ) (simplify : Bool) (slots : Slots) : Prop :=
  if simplify then ∃ last, IsGreedy level s.units total slots last
  else slots = (s.units.map fun _ => none).set s.baseIndex (some (.ofRat total))

variable {s : UnitSet} {level : ℤ} {normalized : Rational} {simplify : Bool}

/-- **Conversion** gives the form asked for. -/
theorem isAsked_convert (hs : s.IsChecked) (hdef : normalized.isDefined = true)
    (h : Lossless (s.convertSteps normalized level simplify)) :
    s.IsAsked level (normalized.toRat * s.multiplier / s.divisor) simplify
      (s.convert normalized level simplify) := by
  obtain ⟨hscale, hspread⟩ := lossless_append.mp h
  have hd := hs.divisor_pos.ne'
  cases simplify with
  | true =>
    rw [IsAsked, if_pos rfl, ← toRat_scaleBy hd hscale]
    exact isGreedy_spread hs.units_ne_nil hs.units_pos ((isDefined_scaleBy _ _ hd).trans hdef)
      hspread
  | false =>
    rw [IsAsked, if_neg Bool.false_ne_true, convert,
      scaleBy_eq_ofRat hdef _ hd (lossless_cons.mp hscale).1]
    rfl

/-- The form asked for can be told. -/
theorem isFilled_convert (hs : s.IsChecked) (hdef : normalized.isDefined = true)
    (hnonneg : 0 ≤ normalized.toRat) (h : Lossless (s.convertSteps normalized level simplify)) :
    s.IsFilled (s.convert normalized level simplify) := by
  obtain ⟨hscale, hspread⟩ := lossless_append.mp h
  have hd := hs.divisor_pos.ne'
  have hpos : 0 ≤ (normalized.scaleBy s.multiplier s.divisor).toRat := by
    rw [toRat_scaleBy hd hscale]
    exact div_nonneg (mul_nonneg hnonneg (by exact_mod_cast hs.multiplier_pos.le))
      (by exact_mod_cast hs.divisor_pos.le)
  have hterms := inLowestTerms_scaleBy hdef hd hscale
  have hamounts : ∀ amount, some amount ∈ s.convert normalized level simplify →
      amount.InLowestTerms ∧ 0 ≤ amount.toRat := by
    intro amount ha
    cases simplify with
    | true =>
      obtain ⟨last, hlast⟩ := isGreedy_spread hs.units_ne_nil hs.units_pos hterms.isDefined hspread
      refine ⟨hlast.inLowestTerms amount ha, ?_⟩
      by_cases hzero : amount.toRat = 0
      · exact hzero.ge
      · -- no amount but zero has another sign than the total
        have hsign := hlast.sign_eq
          (fun u hu => MeasureUnit.size_pos (hs.units_pos u hu)) ha hzero
        exact sign_nonneg_iff.mp (hsign ▸ sign_nonneg_iff.mpr hpos)
    | false =>
      rcases List.mem_or_eq_of_mem_set ha with hmem | heq
      · simp at hmem
      · obtain rfl := Option.some.inj heq
        exact ⟨hterms, hpos⟩
  refine ⟨s.length_convert _ _ _, fun amount ha => (hamounts amount ha).1, fun amount ha => ?_⟩
  obtain ⟨hamount, hsign⟩ := hamounts amount ha
  refine ⟨hamount.isDefined, ?_⟩
  rw [hamount.eq_ofRat, negative_ofRat, decide_eq_false_iff_not, Rat.num_neg]
  exact not_lt.mpr hsign

end UnitSet

namespace Measure

variable {k : Kind} {m : Measure k} {index : ℕ} {s : UnitSet} {asked : Slots}

/-- The slots shown in the set at `index`: what was written in that set stays, anything else is
brought into the form asked for. -/
def slotsIn (m : Measure k) (index : ℕ) (asked : Slots) : Slots :=
  if m.set = some index then m.slots else asked

/-- What is printed for a measure in a set: the slots shown there. -/
theorem text_converted_withLevel {d : Dimension} {m : Measure (.standard d)}
    (hset : d.family.sets[index]? = some s) (hdef : m.isDefined = true) (level : ℤ)
    (simplify : Bool) :
    ((m.withLevel level).converted index simplify).text =
      textIn d index (m.slotsIn index (s.convert m.normalized (max level 1) simplify)) := by
  have hset' : (Kind.standard d).family.sets[index]? = some s := hset
  obtain ⟨_ | own, slots, old⟩ := m
  · cases hdef
  · rw [converted, hset', slotsIn]
    by_cases hown : own = index
    · subst hown
      simp only [withLevel, decide_true, Bool.or_true, if_true]
      rfl
    · simp only [withLevel, isDefined, Option.isSome_some, Option.some.injEq, hown, Bool.not_true,
        decide_false, Bool.or_self, Bool.false_eq_true, if_false]
      rfl

/-- The slots shown can be given in a text, whether they were written or asked for. -/
theorem isFilled_slotsIn (hset : k.family.sets[index]? = some s) (hwf : m.WellFormed)
    (hgiven : m.slots.AreGiven) (hterms : ∀ amount, some amount ∈ m.slots → amount.InLowestTerms)
    (hasked : s.IsFilled asked) : s.IsFilled (m.slotsIn index asked) := by
  rw [slotsIn]
  split_ifs with hown
  · obtain ⟨own, hs, hlength, -⟩ := hwf.exists_set hown
    obtain rfl := Option.some.inj (hset.symm.trans hs)
    exact ⟨hlength, hterms, hgiven⟩
  · exact hasked

end Measure

/-! ## Calculations -/

namespace Calculator

variable {d : Dimension} {r : Request} {m m₁ m₂ : Measure (.standard d)} {name : String}
  {index : ℕ} {s : UnitSet}

/-- The request with the wish for the units of a set. -/
def Request.inUnits (r : Request) (name : String) (simplify : Bool) : Request :=
  { r with target := some name, simplify := simplify }

/-- **A measure is printed** as it is converted to the set asked for, with the level of the
settings. -/
theorem evaluate_inUnits (hindex : d.family.indexOf name = some index)
    (hread : Measure.parse (.standard d) r.input = .ok m) (simplify : Bool) (settings : Settings)
    (entropy : ℕ) :
    ∃ c, evaluate (.measure d) (r.inUnits name simplify) settings entropy = .ok c ∧
      c.value = ((m.withLevel (settings.simplify.of d)).converted index simplify).text := by
  have harrange : (r.inUnits name simplify).arrange d (m.withLevel (settings.simplify.of d)) =
      .ok ((m.withLevel (settings.simplify.of d)).converted index simplify) := by
    have hindex' : (Kind.standard d).family.indexOf name = some index := hindex
    rw [Request.arrange, Request.inUnits]
    simp only [hindex']
  have hreading : (r.inUnits name simplify).reading (.measure d)
      (Measure.parse (.standard d) (r.inUnits name simplify).input) = .ok m := by
    rw [Request.inUnits, hread, Request.reading]
  rw [evaluate, Request.measure, hreading]
  simp only [bind, Except.bind, harrange]
  exact ⟨_, rfl, rfl⟩

/-- **A set asked for** decides what is printed, so far as it was not written in that set. A
calculation always succeeds and prints the slots shown (`Measure.slotsIn`): for a measure of another
set the form asked for, which is one form for one amount, and else those that were written. Two
calculations with one amount print the same exactly if the slots they show have the same amounts.
Nothing may be cut: neither an amount that is read nor a step on the way to the form asked for. -/
theorem requested_units (r₁ r₂ : Request) (simplify : Bool) (settings : Settings) (entropy : ℕ)
    (hindex : d.family.indexOf name = some index) (hset : d.family.sets[index]? = some s)
    (hread₁ : Measure.parse (.standard d) r₁.input = .ok m₁)
    (hread₂ : Measure.parse (.standard d) r₂.input = .ok m₂)
    (hcompare : m₁.compare m₂ = .eq)
    (hterms : ∀ amount, some amount ∈ m₁.slots ++ m₂.slots → amount.InLowestTerms)
    (hsteps : Lossless (m₁.normalizedSteps ++ m₂.normalizedSteps ++
      s.convertSteps m₁.normalized (max (settings.simplify.of d) 1) simplify)) :
    ∃ asked c₁ c₂,
      s.IsAsked (max (settings.simplify.of d) 1) (m₁.amount * s.multiplier / s.divisor) simplify
        asked ∧
      evaluate (.measure d) (r₁.inUnits name simplify) settings entropy = .ok c₁ ∧
      evaluate (.measure d) (r₂.inUnits name simplify) settings entropy = .ok c₂ ∧
      c₁.value = Measure.textIn d index (m₁.slotsIn index asked) ∧
      c₂.value = Measure.textIn d index (m₂.slotsIn index asked) ∧
      (c₁.value = c₂.value ↔
        (m₁.slotsIn index asked).counted = (m₂.slotsIn index asked).counted) := by
  have hk : (Kind.standard d).family.IsChecked := d.isChecked_family
  have hs : s.IsChecked := hk s (List.mem_of_getElem? hset)
  obtain ⟨hnormalized, hconvert⟩ := lossless_append.mp hsteps
  obtain ⟨hnormalized₁, hnormalized₂⟩ := lossless_append.mp hnormalized
  obtain ⟨rest₁, hparsed₁⟩ := Measure.exists_read_of_parse hread₁
  obtain ⟨rest₂, hparsed₂⟩ := Measure.exists_read_of_parse hread₂
  have hdef₁ := Measure.isDefined_of_read hparsed₁
  have hdef₂ := Measure.isDefined_of_read hparsed₂
  have hwf₁ := Measure.wellFormed_of_read hparsed₁
  have hwf₂ := Measure.wellFormed_of_read hparsed₂
  obtain ⟨hcanonical₁, hamount, -⟩ := Measure.normalized_exact hk hwf₁ hnormalized₁
  obtain ⟨hcanonical₂, -, -⟩ := Measure.normalized_exact hk hwf₂ hnormalized₂
  -- one amount has one normalized value, and so one form asked for
  have hsame : m₁.normalized = m₂.normalized :=
    (hcanonical₁.compare_eq_iff hcanonical₂).mp hcompare
  have hdef : m₁.normalized.isDefined = true := (Measure.isDefined_normalized hk hwf₁).trans hdef₁
  have hasked := s.isAsked_convert hs hdef hconvert
  have hnonneg : 0 ≤ m₁.normalized.toRat :=
    hamount ▸ Measure.amount_nonneg hk hwf₁ (Measure.areGiven_of_parse hread₁)
  have hfilled := s.isFilled_convert hs hdef hnonneg hconvert
  have hfilled₁ := Measure.isFilled_slotsIn hset hwf₁ (Measure.areGiven_of_parse hread₁)
    (fun amount ha => hterms amount (List.mem_append_left _ ha)) hfilled
  have hfilled₂ := Measure.isFilled_slotsIn hset hwf₂ (Measure.areGiven_of_parse hread₂)
    (fun amount ha => hterms amount (List.mem_append_right _ ha)) hfilled
  obtain ⟨c₁, hc₁, hvalue₁⟩ := evaluate_inUnits hindex hread₁ simplify settings entropy
  obtain ⟨c₂, hc₂, hvalue₂⟩ := evaluate_inUnits hindex hread₂ simplify settings entropy
  rw [Measure.text_converted_withLevel hset hdef₁] at hvalue₁
  rw [Measure.text_converted_withLevel hset hdef₂, ← hsame] at hvalue₂
  rw [hamount] at hasked
  refine ⟨_, c₁, c₂, hasked, hc₁, hc₂, hvalue₁, hvalue₂, ?_⟩
  rw [hvalue₁, hvalue₂, Measure.textIn_eq_textIn_iff hset hfilled₁ hfilled₂]

/-- A mile and six feet, and as much in meters: greedy slots are asked for, and both show them. -/
theorem requested_units_mileAndMeters :
    ∃ s asked c₁ c₂, Dimension.distance.family.sets[0]? = some s ∧
      s.IsAsked 3 (5286 * s.multiplier / s.divisor) true asked ∧
      evaluate (.measure .distance) ⟨"1 mi 6 ft", some "feet", true, 0, none, none⟩ .standard 0 =
        .ok c₁ ∧
      evaluate (.measure .distance) ⟨"2114 2/5 m", some "feet", true, 0, none, none⟩ .standard 0 =
        .ok c₂ ∧
      c₁.value = "1 mi 6 ft" ∧ c₂.value = "1 mi 6 ft" ∧
      Slots.counted asked = [some .one, some (.ofInt 6), none] := by
  let mile : Measure (.standard .distance) := ⟨some 0, [some .one, some (.ofInt 6), none], 3⟩
  let meters : Measure (.standard .distance) := ⟨some 1, [none, some ⟨false, 2114, 2, 5⟩, none], 3⟩
  have hmile : Measure.parse (.standard .distance) "1 mi 6 ft" = .ok mile := by decide +kernel
  have hmeters : Measure.parse (.standard .distance) "2114 2/5 m" = .ok meters := by decide +kernel
  have hterms : ∀ amount, some amount ∈ mile.slots ++ meters.slots → amount.InLowestTerms := by
    intro amount hamount
    obtain rfl | rfl | rfl : amount = .one ∨ amount = .ofInt 6 ∨ amount = ⟨false, 2114, 2, 5⟩ := by
      simpa [mile, meters] using hamount
    all_goals decide
  have hamount : mile.amount = 5286 := by decide +kernel
  have hfeet : Dimension.distance.family.indexOf "feet" = some 0 := by decide +kernel
  obtain ⟨asked, c₁, c₂, hasked, hc₁, hc₂, -, -, hsame⟩ :=
    requested_units ⟨"1 mi 6 ft", none, false, 0, none, none⟩
      ⟨"2114 2/5 m", none, false, 0, none, none⟩ true .standard 0 hfeet rfl hmile hmeters
      (by decide +kernel) hterms (by decide +kernel)
  have hvalue₁ : c₁.value = "1 mi 6 ft" :=
    Except.ok.inj ((congrArg (Except.map Calculation.value) hc₁).symm.trans (by decide +kernel))
  have hvalue₂ : c₂.value = "1 mi 6 ft" :=
    Except.ok.inj ((congrArg (Except.map Calculation.value) hc₂).symm.trans (by decide +kernel))
  -- the meters are brought into the form asked for, so the mile is in that form already
  have hcounted : mile.slots.counted = asked.counted := hsame.mp (hvalue₁.trans hvalue₂.symm)
  exact ⟨_, asked, c₁, c₂, rfl, hamount ▸ hasked, hc₁, hc₂, hvalue₁, hvalue₂,
    hcounted.symm.trans (by decide +kernel)⟩

/-- **A mile stays a mile in feet**, and 5280 feet are not simplified to one: the two amount to the
same, and nothing is cut, but no wish for feet makes them print the same. Simplified without such a
wish, 5280 feet are a mile. -/
theorem requested_units_mile :
    ∃ mile feet : Measure (.standard .distance),
      Measure.parse (.standard .distance) "1 mi" = .ok mile ∧
      Measure.parse (.standard .distance) "5280 ft" = .ok feet ∧
      mile.compare feet = .eq ∧ Lossless (mile.normalizedSteps ++ feet.normalizedSteps) ∧
      (evaluate (.measure .distance) ⟨"5280 ft", none, true, 0, none, none⟩ .standard 0).map
        (·.value) = .ok "1 mi" ∧
      ∀ simplify : Bool,
        (evaluate (.measure .distance) ⟨"1 mi", some "feet", simplify, 0, none, none⟩ .standard
          0).map (·.value) = .ok "1 mi" ∧
        (evaluate (.measure .distance) ⟨"5280 ft", some "feet", simplify, 0, none, none⟩ .standard
          0).map (·.value) = .ok "5280 ft" := by
  refine ⟨⟨some 0, [some .one, none, none], 3⟩, ⟨some 0, [none, some (.ofInt 5280), none], 3⟩,
    ?_, ?_, ?_, ?_, ?_, ?_⟩ <;> decide +kernel

end Calculator

end Tabletop
