import Tabletop.Measure.Named
import Tabletop.Proofs.Record.Measures

/-!
# Measures fit their sets

Amounts and units are paired place by place, so a measure must have an amount for every unit of its
set, and no more. Is that so for every measure that there can be?

* **Reachable** measures are made, read, restored from records and computed from one another, in any
  order. The family may be any, and so may the levels that are asked for;
* every operation keeps a measure **fitting**: well formed, and with a level of at least one if the
  usual one of the kind is that (`Fitting.add`, `Fitting.toSet`, …). Hence **every reachable measure
  fits** (`Reachable.fitting`);
* what reading finds is a unit of a set of the family, so that there is a slot for its amount
  (`Family.unit_lt_of_readPair`).

**reachable_fits_set** puts this together, and adds that a sum or a difference is in the set of the
first measure if that is defined, with its level.
-/

namespace Tabletop

/-! ## Units that are read -/

/-- **A unit that is read** is one of its set's. -/
theorem UnitSet.unit_lt_of_readUnit {s : UnitSet} {cs rest : List Char} {unit : ℕ}
    (h : s.readUnit cs = (some unit, rest)) : unit < s.units.length := by
  unfold readUnit at h
  split at h
  · cases h
  · split at h
    · rename_i hfound
      cases h
      rw [findUnit, List.findIdx?_eq_some_iff_getElem] at hfound
      exact hfound.1
    · cases h

/-- A pair is read into a slot that its set has. -/
theorem Family.unit_lt_of_readPair {f : Family} {set : Option ℕ} {cs rest : List Char}
    {amount : Rational} {index unit : ℕ}
    (h : f.readPair set cs = (some (amount, index, unit), rest)) :
    ∃ s, f.sets[index]? = some s ∧ unit < s.units.length := by
  obtain ⟨behind, -, -, hunit⟩ := readPair_eq_some h
  obtain ⟨-, s, hs, hread⟩ := readUnit_eq_some hunit
  exact ⟨s, hs, UnitSet.unit_lt_of_readUnit hread⟩

namespace Measure

variable {k : Kind} {m n : Measure k}

/-! ## Reachable measures -/

/-- Measures that are made, read, restored and computed, in any order. -/
inductive Reachable : Measure k → Prop
  | undefined : Reachable undefined
  | ofSlots {index : ℕ} {slots : Slots} {m : Measure k} (h : ofSlots k index slots = .ok m) :
    Reachable m
  | inSet {name : String} {slots : Slots} {m : Measure k} (h : inSet k name slots = .ok m) :
    Reachable m
  | read {cs rest : List Char} {m : Measure k} (h : read k cs = (some m, rest)) : Reachable m
  | ofRecord {parts : Record.MeasureParts} {m : Measure k} (h : Record.measureOf k parts = .ok m) :
    Reachable m
  | withLevel {m : Measure k} (hm : Reachable m) (level : ℤ) : Reachable (m.withLevel level)
  | toSet {m n : Measure k} (hm : Reachable m) {index : ℕ} {simplify : Bool}
    (h : m.toSet index simplify = .ok n) : Reachable n
  | simplify {m : Measure k} (hm : Reachable m) : Reachable m.simplify
  | add {m n : Measure k} (hm : Reachable m) (hn : Reachable n) : Reachable (m.add n)
  | subtract {m n : Measure k} (hm : Reachable m) (hn : Reachable n) : Reachable (m.subtract n)
  | multiply {m : Measure k} (hm : Reachable m) (factor : Rational) :
    Reachable (m.multiply factor)
  | multiplyInt {m : Measure k} (hm : Reachable m) (factor : ℤ) :
    Reachable (m.multiplyInt factor)
  | divide {m n : Measure k} (hm : Reachable m) {divisor : Rational}
    (h : m.divide divisor = .ok n) : Reachable n
  | divideInt {m n : Measure k} (hm : Reachable m) {divisor : ℤ}
    (h : m.divideInt divisor = .ok n) : Reachable n

/-! ## What every operation keeps -/

/-- A measure that fits its set, with a level that simplification can work with. -/
structure Fitting (m : Measure k) : Prop where
  wellFormed : m.WellFormed
  one_le_level : 1 ≤ k.level → 1 ≤ m.level

/-- A sum has the set and the level of the first measure, if that is defined. -/
theorem add_set_level (hm : m.isDefined = true) (n : Measure k) :
    (m.add n).set = m.set ∧ (m.add n).level = m.level := by
  obtain ⟨_ | index, slots, level⟩ := m
  · cases hm
  · unfold Measure.add
    simp only
    split <;> exact ⟨rfl, rfl⟩

/-- A difference keeps set and level of the first operand, as a sum does. -/
theorem subtract_set_level (hm : m.isDefined = true) (n : Measure k) :
    (m.subtract n).set = m.set ∧ (m.subtract n).level = m.level := by
  obtain ⟨_ | index, slots, level⟩ := m
  · cases hm
  · unfold Measure.subtract
    simp only
    split <;> exact ⟨rfl, rfl⟩

namespace Fitting

/-- A well-formed measure of the usual level. -/
theorem of_level (hm : m.WellFormed) (h : m.level = k.level) : m.Fitting := ⟨hm, fun hk => h ▸ hk⟩

theorem undefined : (undefined : Measure k).Fitting := of_level (.undefined _) rfl

theorem of_ofSlots {index : ℕ} {slots : Slots} (h : ofSlots k index slots = .ok m) : m.Fitting :=
  of_level (.of_ofSlots h) (level_of_ofSlots h)

theorem of_inSet {name : String} {slots : Slots} (h : inSet k name slots = .ok m) :
    m.Fitting := by
  obtain ⟨index, -, hmade⟩ := exists_ofSlots_of_inSet h
  exact of_ofSlots hmade

/-- **A measure that is read** fits its set. -/
theorem of_read {cs rest : List Char} (h : read k cs = (some m, rest)) : m.Fitting := by
  have hlevel := level_readOnto (Measure.undefined : Measure k) cs
  rw [read_eq_some h] at hlevel
  exact of_level (wellFormed_of_read h) hlevel

theorem withLevel (hm : m.Fitting) (level : ℤ) : (m.withLevel level).Fitting := by
  refine ⟨?_, fun _ => le_max_right level 1⟩
  cases hm.wellFormed with
  | undefined => exact .undefined _
  | inSet hset hslots => exact .inSet hset hslots

/-- A record tells a set by its name, or stands for the undefined measure. -/
theorem of_measureOf {parts : Record.MeasureParts} (h : Record.measureOf k parts = .ok m) :
    m.Fitting := by
  unfold Record.measureOf at h
  split at h
  · cases h
    exact undefined
  · obtain ⟨slots, -, h⟩ := Family.bind_eq_ok h
    obtain ⟨made, hmade, h⟩ := Family.bind_eq_ok h
    have hfits := of_inSet hmade
    split at h
    · rename_i level _
      cases h
      exact hfits.withLevel level
    · cases h
      exact hfits

theorem toSet (hm : m.Fitting) {index : ℕ} {simplify : Bool}
    (h : m.toSet index simplify = .ok n) : n.Fitting := by
  obtain rfl := eq_converted_of_toSet h
  refine ⟨hm.wellFormed.converted index simplify, ?_⟩
  rw [level_converted]
  exact hm.one_le_level

theorem mapSlots (hm : m.Fitting) (f : Rational → Rational) : (m.mapSlots f).Fitting :=
  ⟨hm.wellFormed.mapSlots f, hm.one_le_level⟩

theorem simplify (hm : m.Fitting) : m.simplify.Fitting := by
  refine ⟨hm.wellFormed.simplify, ?_⟩
  rw [level_simplify]
  exact hm.one_le_level

/-- **A sum fits its set**: the second operand is brought into the set of the first one before. -/
theorem add (hm : m.Fitting) (hn : n.Fitting) : (m.add n).Fitting := by
  refine ⟨hm.wellFormed.add hn.wellFormed, ?_⟩
  cases hdef : m.isDefined with
  | false =>
    rw [add_of_undefined hdef]
    exact hn.one_le_level
  | true =>
    rw [(add_set_level hdef n).2]
    exact hm.one_le_level

theorem subtract (hm : m.Fitting) (hn : n.Fitting) : (m.subtract n).Fitting := by
  refine ⟨hm.wellFormed.subtract hn.wellFormed, ?_⟩
  cases hdef : m.isDefined with
  | false =>
    have hset : m.set = none := by simpa [isDefined] using hdef
    rw [Measure.subtract, hset]
    exact hn.one_le_level
  | true =>
    rw [(subtract_set_level hdef n).2]
    exact hm.one_le_level

theorem multiply (hm : m.Fitting) (factor : Rational) : (m.multiply factor).Fitting :=
  (hm.mapSlots _).simplify

theorem multiplyInt (hm : m.Fitting) (factor : ℤ) : (m.multiplyInt factor).Fitting :=
  (hm.mapSlots _).simplify

theorem divide (hm : m.Fitting) {divisor : Rational} (h : m.divide divisor = .ok n) :
    n.Fitting := by
  obtain ⟨inverse, rfl⟩ := exists_of_divide h
  exact hm.multiply inverse

end Fitting

/-- **Every reachable measure fits its set.** -/
theorem Reachable.fitting (h : Reachable m) : m.Fitting := by
  induction h with
  | undefined => exact .undefined
  | ofSlots h => exact .of_ofSlots h
  | inSet h => exact .of_inSet h
  | read h => exact .of_read h
  | ofRecord h => exact .of_measureOf h
  | withLevel _ level ih => exact ih.withLevel level
  | toSet _ h ih => exact ih.toSet h
  | simplify _ ih => exact ih.simplify
  | add _ _ ihm ihn => exact ihm.add ihn
  | subtract _ _ ihm ihn => exact ihm.subtract ihn
  | multiply _ factor ih => exact ih.multiply factor
  | multiplyInt _ factor ih => exact ih.multiplyInt factor
  | divide _ h ih => exact ih.divide h
  | divideInt _ h ih => exact ih.divide h

/-! ## The slots of a measure -/

/-- **A measure fits its set**, whatever it was made, read and computed from: without a set it has no
slots, and with a set, which is one of the family's, it has one slot for each unit, also for the
unit that is read next. Its level is at least one, and a measure that is defined keeps set and level
in sums and differences. -/
theorem reachable_fits_set (hm : Reachable m) :
    (m.isDefined = false → m.slots = []) ∧
    (∀ index, m.set = some index →
      ∃ set, k.family.sets[index]? = some set ∧ m.slots.length = set.units.length ∧
        ∀ cs amount i unit rest, k.family.readPair m.set cs = (some (amount, i, unit), rest) →
          i = index ∧ unit < m.slots.length) ∧
    (1 ≤ k.level → 1 ≤ m.level) ∧
    (m.isDefined = true → ∀ n : Measure k, Reachable n →
      ((m.add n).set = m.set ∧ (m.add n).level = m.level) ∧
        (m.subtract n).set = m.set ∧ (m.subtract n).level = m.level) := by
  obtain ⟨hwf, hlevel⟩ := hm.fitting
  refine ⟨fun hdef => ?_, fun index hindex => ?_, hlevel, fun hdef n _ => ?_⟩
  · cases hwf with
    | undefined => rfl
    | inSet => cases hdef
  · obtain ⟨set, hset, hlength, -⟩ := hwf.exists_set hindex
    refine ⟨set, hset, hlength, fun cs amount i unit rest hread => ?_⟩
    obtain ⟨behind, -, -, hunit⟩ := Family.readPair_eq_some hread
    obtain rfl : i = index := (Family.readUnit_eq_some hunit).1 index hindex
    obtain ⟨s, hs, hlt⟩ := Family.unit_lt_of_readPair hread
    obtain rfl := Option.some.inj (hset.symm.trans hs)
    exact ⟨rfl, hlength ▸ hlt⟩
  · exact ⟨add_set_level hdef n, subtract_set_level hdef n⟩

/-- Three meters taken from nothing, at a level of zero that counts as one. -/
def owedMeters : Distance := (undefined.subtract (Distance.meters 3)).withLevel 0

/-- Feet that are added to the meters owed come into their set, with their level. -/
theorem reachable_fits_set_meters :
    Reachable (owedMeters.add (Distance.feet 5280)) ∧
      (owedMeters.add (Distance.feet 5280)).set = some 1 ∧
      (owedMeters.add (Distance.feet 5280)).level = 1 ∧
      (owedMeters.add (Distance.feet 5280)).slots.length = 3 := by
  have hmeters : Reachable (Distance.meters 3) :=
    .ofSlots (show ofSlots _ 1 (Distance.meters 3).slots = .ok _ from rfl)
  have hfeet : Reachable (Distance.feet 5280) :=
    .ofSlots (show ofSlots _ 0 (Distance.feet 5280).slots = .ok _ from rfl)
  have howed : Reachable owedMeters := .withLevel (.subtract .undefined hmeters) 0
  have hsum := Reachable.add howed hfeet
  obtain ⟨⟨hset, hlevel⟩, -⟩ := (reachable_fits_set howed).2.2.2 rfl _ hfeet
  obtain ⟨set, hget, hlength, -⟩ := (reachable_fits_set hsum).2.1 1 hset
  obtain rfl := Option.some.inj hget
  exact ⟨hsum, hset, hlevel, hlength⟩

end Measure

end Tabletop
