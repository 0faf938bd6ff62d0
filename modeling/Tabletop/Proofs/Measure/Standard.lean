import Tabletop.Proofs.Measure.ReadBack

/-!
# Texts of standard measures

Which measures of the standard dimensions are read back from their text?

* **IsReadable** measures are those without negative amounts, which do not count rounds together
  with actions: rounds come first in the text, and decide for the set of rounds alone;
* they are **read back** with the same text and the same normalized amount
  (`parse_text_of_isReadable`), though rounds without actions come back in the other set;
* the text of any other measure is **refused** (`parse_text_of_not_isReadable`).
-/

namespace Tabletop

open Rational

namespace Measure

variable {d : Dimension} {m : Measure (.standard d)}

/-- An amount other than zero is given for the unit. -/
def Counts (m : Measure (.standard d)) (unit : ℕ) : Prop :=
  ∃ amount, m.slots[unit]? = some (some amount) ∧ amount.isNull = false

/-- The measure counts rounds and, beside them, actions. -/
def MixesRounds (m : Measure (.standard d)) : Prop :=
  d = .duration ∧ m.set = some 2 ∧ m.Counts 0 ∧ ∃ unit ≠ 0, m.Counts unit

/-- What can be read back: no negative amounts, and no rounds beside actions. -/
def IsReadable (m : Measure (.standard d)) : Prop :=
  (∀ amount, some amount ∈ m.slots → amount.negative = false) ∧ ¬ m.MixesRounds

/-- Parsing the text of a measure gives what the text tells. -/
theorem parse_text_eq {index : ℕ} {s : UnitSet} {slots : Slots}
    (hset : d.family.sets[index]? = some s) (hslots : slots.length = s.units.length)
    (hterms : ∀ amount, some amount ∈ slots → amount.InLowestTerms) (level : ℤ) :
    parse (.standard d) (⟨some index, slots, level⟩ : Measure (.standard d)).text =
      ((undefined : Measure (.standard d)).giveAll (pairs s.units (s.told slots))).elim
        (.error (.unreadable d.name (⟨some index, slots, level⟩ : Measure (.standard d)).text))
        .ok := by
  have hs : s.IsChecked := d.isChecked_family s (List.mem_of_getElem? hset)
  exact parse_pairs (k := .standard d) d.legible (writable_told hset hterms)
    (UnitSet.pairs_told_ne_nil hs hslots) (toList_text (k := .standard d) hset hs hslots level)

/-- A spelling decides for its own set, if it is not one of rounds with actions. -/
theorem readUnit_own_first {index unit : ℕ} {s : UnitSet} {u : MeasureUnit}
    (hset : d.family.sets[index]? = some s) (hu : s.units[unit]? = some u) {name : String}
    (hname : name ∈ u.names) (hrounds : ¬ (d = .duration ∧ index = 2 ∧ unit = 0)) :
    (d.family.readUnit none name.toList).1 = (d.family.readUnit (some index) name.toList).1 := by
  rw [d.legible.readUnit_own hset hu hname]
  obtain ⟨hindex, rfl⟩ := List.getElem?_eq_some_iff.mp hset
  obtain ⟨hunit, rfl⟩ := List.getElem?_eq_some_iff.mp hu
  rw [d.readUnit_first index hindex unit hunit name hname, if_neg hrounds]

/-- A text is read back as what it tells, if its first spelling decides for the set. -/
theorem parse_text_of_first {index : ℕ} {s : UnitSet} {slots : Slots}
    (hset : d.family.sets[index]? = some s) (hslots : slots.length = s.units.length)
    (hterms : ∀ amount, some amount ∈ slots → amount.InLowestTerms)
    (hnonneg : ∀ amount, some amount ∈ slots → amount.negative = false)
    (hfirst : ∀ p ∈ (pairs s.units (s.told slots)).head?,
      (d.family.readUnit none p.2.toList).1 = (d.family.readUnit (some index) p.2.toList).1)
    (level : ℤ) :
    parse (.standard d) (⟨some index, slots, level⟩ : Measure (.standard d)).text =
      .ok ⟨some index, s.told slots, d.level⟩ := by
  have hs : s.IsChecked := d.isChecked_family s (List.mem_of_getElem? hset)
  rw [parse_text_eq hset hslots hterms,
    giveAll_told (k := .standard d) d.legible hset hs hslots hnonneg hfirst]
  rfl

/-! ## What is read back -/

/-- What is read back from a text: a measure with the same text and, if no step of it is cut, the
same normalized amount. -/
def ReadsAs (m n : Measure (.standard d)) : Prop :=
  n.text = m.text ∧ (Lossless m.normalizedSteps → n.normalized = m.normalized)

/-- A single amount is told as it is. -/
theorem told_singleton {s : UnitSet} {u : MeasureUnit} (hs : s.units = [u]) (hu : u.isBase = true)
    {amount : Rational} (h : amount.InLowestTerms) : s.told [some amount] = [some amount] := by
  cases hnull : amount.isNull with
  | false =>
    rw [UnitSet.told_eq_counted (j := 0) rfl hnull]
    simp [Slots.counted, hnull]
  | true =>
    have hzero := h.eq_zero_of_isNull hnull
    rw [UnitSet.told, if_pos (by simp [Slots.counted, hnull]), UnitSet.baseIndex, hs,
      List.findIdx_cons, hu, hzero]
    rfl

/-- How a round is spelled. -/
def roundNames : List String := ["round", "rounds", "rd", "rds"]

/-- Rounds are given to the set of rounds alone. -/
theorem giveAll_round {name : String} (hname : name ∈ roundNames) {amount : Rational}
    (hneg : amount.negative = false) (ps : List (Rational × String)) :
    (undefined : Measure (.standard .duration)).giveAll ((amount, name) :: ps) =
      (⟨some 1, [some amount], 5⟩ : Measure (.standard .duration)).giveAll ps := by
  have hfirst := Dimension.duration.readUnit_first 1 (by decide) 0 (by decide) name hname
  rw [if_neg (by decide)] at hfirst
  have hround : ((Kind.standard .duration).family.readUnit
      (undefined : Measure (.standard .duration)).set name.toList).1 = some (1, 0) :=
    hfirst
  rw [giveAll, hneg, if_neg Bool.false_ne_true, hround]
  rfl

/-- Where rounds are told and not mixed, nothing else is. -/
theorem told_eq_of_not_mixesRounds {s : UnitSet} (hset : Dimension.durationFamily.sets[2]? = some s)
    {slots : Slots} (hslots : slots.length = s.units.length) {amount : Rational}
    (hfirst : (s.told slots)[0]? = some (some amount)) {level : ℤ}
    (hmixes : ¬ (⟨some 2, slots, level⟩ : Measure (.standard .duration)).MixesRounds) :
    s.told slots = [some amount, none, none, none, none] := by
  obtain ⟨hlength, hbase⟩ : s.units.length = 5 ∧ s.baseIndex = 0 := by
    obtain rfl := Option.some.inj hset
    exact ⟨rfl, rfl⟩
  have hothers : ∀ unit ≠ 0, ∀ other, (s.told slots)[unit]? ≠ some (some other) := by
    intro unit hunit other hother
    by_cases hcounted : ∀ slot ∈ slots.counted, slot = none
    · -- only zero rounds are told
      rw [UnitSet.told, if_pos hcounted, hbase, List.getElem?_set_ne hunit.symm,
        List.getElem?_map, Option.map_eq_some_iff] at hother
      obtain ⟨u, -, hnone⟩ := hother
      cases hnone
    · rw [UnitSet.told, if_neg hcounted, Slots.getElem?_counted] at hfirst hother
      exact hmixes ⟨rfl, rfl, ⟨amount, hfirst⟩, unit, hunit, other, hother⟩
  have htold := UnitSet.length_told hslots
  generalize s.told slots = told at hfirst hothers htold
  cases told with
  | nil => cases hfirst
  | cons slot rest =>
    obtain rfl : slot = some amount := Option.some.inj hfirst
    have hrest : rest = List.replicate 4 none := by
      refine List.eq_replicate_iff.mpr ⟨by simpa [hlength] using htold, fun slot hslot => ?_⟩
      obtain ⟨unit, hunit⟩ := List.mem_iff_getElem?.mp hslot
      cases slot with
      | none => rfl
      | some other => exact absurd hunit (hothers (unit + 1) (Nat.succ_ne_zero unit) other)
    rw [hrest]
    rfl

/-- **Rounds without actions** come back as rounds alone. -/
theorem parse_text_of_rounds {s : UnitSet} (hset : Dimension.durationFamily.sets[2]? = some s)
    {slots : Slots} (hslots : slots.length = s.units.length)
    (hterms : ∀ amount, some amount ∈ slots → amount.InLowestTerms) {amount : Rational}
    (htold : s.told slots = [some amount, none, none, none, none]) (hneg : amount.negative = false)
    (level : ℤ) :
    ∃ n, parse (.standard .duration)
        (⟨some 2, slots, level⟩ : Measure (.standard .duration)).text = .ok n ∧
      ReadsAs (⟨some 2, slots, level⟩ : Measure (.standard .duration)) n := by
  have hs : s.IsChecked := Dimension.duration.isChecked_family s (List.mem_of_getElem? hset)
  obtain ⟨r, hrounds⟩ : ∃ r, Dimension.durationFamily.sets[1]? = some r := ⟨_, rfl⟩
  have hr : r.IsChecked := Dimension.duration.isChecked_family r (List.mem_of_getElem? hrounds)
  have hamount : amount.InLowestTerms := by
    rcases UnitSet.some_mem_told (htold ▸ List.mem_cons_self) with hgiven | rfl
    · exact hterms amount hgiven
    · decide
  have hparse := parse_text_eq (d := .duration) hset hslots hterms level
  have htext := toList_text (k := .standard .duration) hset hs hslots level
  have htotal (h : Lossless (s.asBaseSteps slots)) := UnitSet.asBase_told hs h
  rw [htold] at hparse htext htotal
  obtain rfl := Option.some.inj hset
  obtain rfl := Option.some.inj hrounds
  refine ⟨⟨some 1, [some amount], 5⟩, ?_, ?_, fun h => ?_⟩
  · rw [hparse]
    exact congrArg (Option.elim · _ _)
      (giveAll_round (MeasureUnit.spelling_mem_names _ amount) hneg [])
  · have hlength : [some amount].length = 1 := rfl
    have hround := toList_text (k := .standard .duration) hrounds hr hlength 5
    rw [told_singleton rfl rfl hamount] at hround
    exact String.toList_inj.mp (List.cons.inj (hround.trans htext.symm)).2
  · -- a set of rounds is a sixth of the set of seconds, with or without actions
    have hsum := htotal (lossless_append.mp h).1
    change Rational.scaleBy (UnitSet.asBase _ [some amount]) 6 1 =
      Rational.scaleBy (UnitSet.asBase _ slots) 6 1
    rw [← hsum]
    rfl

/-- **A readable measure is read back** with the same text and the same normalized amount. -/
theorem parse_text_of_isReadable (hm : m.WellFormed) (hdef : m.isDefined = true)
    (hterms : ∀ amount, some amount ∈ m.slots → amount.InLowestTerms) (hr : m.IsReadable) :
    ∃ n, parse (.standard d) m.text = .ok n ∧ m.ReadsAs n := by
  cases hm with
  | undefined => cases hdef
  | @inSet index s slots level hset hslots =>
    obtain ⟨hnonneg, hmixes⟩ := hr
    have hs : s.IsChecked := d.isChecked_family s (List.mem_of_getElem? hset)
    by_cases hrounds : d = .duration ∧ index = 2 ∧ ∃ amount, (s.told slots)[0]? = some (some amount)
    · obtain ⟨rfl, rfl, amount, hfirst⟩ := hrounds
      have htold := told_eq_of_not_mixesRounds hset hslots hfirst hmixes
      refine parse_text_of_rounds hset hslots hterms htold ?_ level
      rcases UnitSet.some_mem_told (htold ▸ List.mem_cons_self) with hgiven | rfl
      · exact hnonneg amount hgiven
      · rfl
    · have hfirst : ∀ p ∈ (pairs s.units (s.told slots)).head?,
          (d.family.readUnit none p.2.toList).1 =
            (d.family.readUnit (some index) p.2.toList).1 := by
        intro p hp
        obtain ⟨unit, u, hu, hamount, hname⟩ := mem_pairs_iff.mp (List.mem_of_mem_head? hp)
        refine readUnit_own_first hset hu (hname ▸ u.spelling_mem_names p.1) ?_
        rintro ⟨rfl, rfl, rfl⟩
        exact hrounds ⟨rfl, rfl, p.1, hamount⟩
      refine ⟨_, parse_text_of_first hset hslots hterms hnonneg hfirst level,
        text_told (k := .standard d) hset hs hslots _ _, fun h => ?_⟩
      rw [normalizedSteps, activeSet_inSet (k := .standard d) hset] at h
      have htotal := UnitSet.asBase_told hs (lossless_append.mp h).1
      rw [normalized, normalized, activeSet_inSet (k := .standard d) hset,
        activeSet_inSet (k := .standard d) hset]
      simp only [htotal]

/-! ## What is refused -/

/-- Rounds come first and something else later, in the set of rounds and actions. -/
def RoundsFirst (d : Dimension) (index : ℕ) (ps : List (Rational × String)) : Prop :=
  d = .duration ∧ index = 2 ∧ (∃ p ∈ ps.head?, p.2 ∈ roundNames) ∧ ∃ p ∈ ps, p.2 ∉ roundNames

/-- The units of rounds and actions: a round comes first, and has its names for itself. -/
theorem exists_round {s : UnitSet} (hset : Dimension.durationFamily.sets[2]? = some s) :
    ∃ u us, s.units = u :: us ∧ u.names = roundNames ∧
      ∀ v ∈ us, ∀ name ∈ v.names, name ∉ roundNames := by
  obtain rfl := Option.some.inj hset
  exact ⟨_, _, rfl, rfl, by decide⟩

/-- **Rounds first**: they are given to the set of rounds alone, and actions behind them are
refused. -/
theorem giveAll_of_roundsFirst {index : ℕ} {s : UnitSet} (hset : d.family.sets[index]? = some s)
    {ps : List (Rational × String)} (hps : ∀ p ∈ ps, ∃ u ∈ s.units, p.2 ∈ u.names)
    (h : RoundsFirst d index ps) : (undefined : Measure (.standard d)).giveAll ps = none := by
  obtain ⟨rfl, rfl, ⟨⟨amount, name⟩, hfirst, hround⟩, p, hp, hother⟩ := h
  obtain ⟨qs, rfl⟩ := List.head?_eq_some_iff.mp hfirst
  cases hneg : amount.negative with
  | true => exact giveAll_of_refused List.mem_cons_self (.inl hneg)
  | false =>
    rw [giveAll_round hround hneg]
    have hlater : p ∈ qs := by
      rcases List.mem_cons.mp hp with rfl | hp
      · exact absurd hround hother
      · exact hp
    obtain ⟨u, hu, hname⟩ := hps p hp
    obtain ⟨v, vs, hunits, hnames, -⟩ := exists_round hset
    have haction : u ∈ s.units.tail := by
      rw [hunits] at hu ⊢
      rcases List.mem_cons.mp hu with rfl | hu
      · exact absurd (hnames ▸ hname) hother
      · exact hu
    exact giveAll_of_refused hlater
      (.inr ⟨1, rfl, Dimension.readUnit_action hset u haction p.2 hname⟩)

/-- Where rounds are mixed with actions, the rounds come first in the text. -/
theorem roundsFirst_of_mixesRounds {s : UnitSet} {slots : Slots} {level : ℤ} {index : ℕ}
    (hset : d.family.sets[index]? = some s) (hslots : slots.length = s.units.length)
    (hmixes : (⟨some index, slots, level⟩ : Measure (.standard d)).MixesRounds) :
    RoundsFirst d index (pairs s.units (s.told slots)) := by
  obtain ⟨rfl, hindex, ⟨amount, hamount, hnull⟩, unit, hunit, other, hother, hother'⟩ := hmixes
  obtain rfl := Option.some.inj hindex
  obtain ⟨u, us, hunits, hnames, hothers⟩ := exists_round hset
  have hround := Slots.getElem?_counted.mpr ⟨hamount, hnull⟩
  have haction := Slots.getElem?_counted.mpr ⟨hother, hother'⟩
  rw [UnitSet.told_eq_counted hamount hnull]
  refine ⟨rfl, rfl, ⟨(amount, u.spelling amount), ?_, hnames ▸ u.spelling_mem_names amount⟩, ?_⟩
  · obtain ⟨rest, hcounted⟩ : ∃ rest, slots.counted = some amount :: rest :=
      List.head?_eq_some_iff.mp (by rwa [List.head?_eq_getElem?])
    rw [hunits, hcounted]
    rfl
  · obtain ⟨j, rfl⟩ := Nat.exists_eq_succ_of_ne_zero hunit
    have hlt : j < us.length := by
      have hj := (List.getElem?_eq_some_iff.mp hother).1
      rw [hslots, hunits, List.length_cons] at hj
      omega
    have hv : s.units[j + 1]? = some us[j] := by
      rw [hunits, List.getElem?_cons_succ, List.getElem?_eq_getElem hlt]
    exact ⟨(other, us[j].spelling other), mem_pairs_iff.mpr ⟨j + 1, _, hv, haction, rfl⟩,
      hothers _ (List.getElem_mem hlt) _ (us[j].spelling_mem_names other)⟩

/-- Rounds beside actions are refused: the rounds are given to the set of rounds alone. -/
theorem giveAll_of_mixesRounds {s : UnitSet} {slots : Slots} {level : ℤ} {index : ℕ}
    (hset : d.family.sets[index]? = some s) (hslots : slots.length = s.units.length)
    (hmixes : (⟨some index, slots, level⟩ : Measure (.standard d)).MixesRounds) :
    (undefined : Measure (.standard d)).giveAll (pairs s.units (s.told slots)) = none := by
  refine giveAll_of_roundsFirst hset (fun p hp => ?_)
    (roundsFirst_of_mixesRounds hset hslots hmixes)
  obtain ⟨unit, u, hu, -, hname⟩ := mem_pairs_iff.mp hp
  exact ⟨u, List.mem_of_getElem? hu, hname ▸ u.spelling_mem_names p.1⟩

/-- **The text of any other measure is refused.** -/
theorem parse_text_of_not_isReadable (hm : m.WellFormed) (hdef : m.isDefined = true)
    (hterms : ∀ amount, some amount ∈ m.slots → amount.InLowestTerms) (hr : ¬ m.IsReadable) :
    parse (.standard d) m.text = .error (.unreadable d.name m.text) := by
  cases hm with
  | undefined => cases hdef
  | @inSet index s slots level hset hslots =>
    rw [parse_text_eq hset hslots hterms]
    suffices hrefused :
        (undefined : Measure (.standard d)).giveAll (pairs s.units (s.told slots)) = none by
      rw [hrefused]
      rfl
    by_cases hnonneg : ∀ amount, some amount ∈ slots → amount.negative = false
    · exact giveAll_of_mixesRounds hset hslots (not_not.mp (not_and.mp hr hnonneg))
    · push Not at hnonneg
      obtain ⟨amount, hamount, hneg⟩ := hnonneg
      have hneg : amount.negative = true := by simpa using hneg
      obtain ⟨unit, hunit⟩ := List.mem_iff_getElem?.mp hamount
      have hlt : unit < s.units.length := hslots ▸ (List.getElem?_eq_some_iff.mp hunit).1
      have hnull := (hterms amount hamount).isNull_of_negative hneg
      have hpair : (amount, s.units[unit].spelling amount) ∈ pairs s.units (s.told slots) := by
        rw [UnitSet.told_eq_counted hunit hnull]
        exact mem_pairs_iff.mpr ⟨unit, _, List.getElem?_eq_getElem hlt,
          Slots.getElem?_counted.mpr ⟨hunit, hnull⟩, rfl⟩
      exact giveAll_of_refused hpair (.inl hneg)

end Measure

end Tabletop
