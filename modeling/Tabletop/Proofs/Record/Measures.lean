import Tabletop.Proofs.Measure.Read
import Tabletop.Proofs.Record.Numbers
import Tabletop.Record.Measures

/-!
# Records of measures, restored

A measure's record names its set, lists its slots and tells its level. What of it is found again?

* **Obtained** measures are those that can be made, read and computed. They have the slots of their
  set, and their level is the usual one or can be restored (`Obtained.sound`);
* the record of a measure in a set **restores** the slots and the level in the first set of that
  name (`decode_encode_inSet`), the record of any other one the undefined measure
  (`decode_encode_undefined`);
* hence **a measure is restored** exactly if it has the usual level where it is undefined, and no
  earlier set goes by the name of its own (`decode_encode_iff`).
-/

namespace Tabletop

open Json Record

namespace Measure

variable {k : Kind} {m : Measure k}

/-! ## Measures that can be obtained -/

/-- Measures that can be made, read and computed. -/
inductive Obtained : Measure k → Prop
  | undefined : Obtained undefined
  | ofSlots {index : ℕ} {slots : Slots} {m : Measure k} (h : ofSlots k index slots = .ok m) :
    Obtained m
  | inSet {name : String} {slots : Slots} {m : Measure k} (h : inSet k name slots = .ok m) :
    Obtained m
  | read {cs rest : List Char} {m : Measure k} (h : read k cs = (some m, rest)) : Obtained m
  | withLevel {m : Measure k} (hm : Obtained m) {level : ℤ} (hlevel : Fits level) :
    Obtained (m.withLevel level)
  | toSet {m n : Measure k} (hm : Obtained m) {index : ℕ} {simplify : Bool}
    (h : m.toSet index simplify = .ok n) : Obtained n
  | simplify {m : Measure k} (hm : Obtained m) : Obtained m.simplify
  | add {m n : Measure k} (hm : Obtained m) (hn : Obtained n) : Obtained (m.add n)
  | subtract {m n : Measure k} (hm : Obtained m) (hn : Obtained n) : Obtained (m.subtract n)
  | multiply {m : Measure k} (hm : Obtained m) (factor : Rational) : Obtained (m.multiply factor)
  | divide {m n : Measure k} (hm : Obtained m) {divisor : Rational} (h : m.divide divisor = .ok n) :
    Obtained n

/-- A level that a record can tell: the usual one of the kind, or one that can be stored. -/
def HasSoundLevel (m : Measure k) : Prop := m.level = k.level ∨ (1 ≤ m.level ∧ Fits m.level)

/-- A measure keeps its level when it is brought into a set. -/
theorem level_converted (m : Measure k) (index : ℕ) (simplify : Bool) :
    (m.converted index simplify).level = m.level := by
  unfold converted
  split
  · rfl
  · split <;> rfl

theorem level_simplify (m : Measure k) : m.simplify.level = m.level := by
  unfold simplify
  split <;> rfl

/-- Reading on does not change the level. -/
theorem level_readOnto (m : Measure k) (cs : List Char) : (m.readOnto cs).1.level = m.level := by
  induction m, cs using Measure.readOnto.induct with
  | case1 m cs rest hread => rw [readOnto_of_none hread]
  | case2 m cs amount index unit rest hread ih =>
    rw [readOnto_of_some hread, ih]
    rfl

theorem level_of_ofSlots {index : ℕ} {slots : Slots} (h : ofSlots k index slots = .ok m) :
    m.level = k.level := by
  unfold ofSlots at h
  split at h
  · cases h
  · split at h <;> cases h
    rfl

/-- An amount in a set is given for its number. -/
theorem exists_ofSlots_of_inSet {name : String} {slots : Slots} (h : inSet k name slots = .ok m) :
    ∃ index, k.family.indexOf name = some index ∧ ofSlots k index slots = .ok m := by
  unfold inSet at h
  split at h
  · cases h
  · rename_i index hindex
    exact ⟨index, hindex, h⟩

/-- A sum has the level of one of its parts. -/
theorem HasSoundLevel.add {n : Measure k} (hm : m.HasSoundLevel) (hn : n.HasSoundLevel) :
    (m.add n).HasSoundLevel := by
  unfold Measure.add
  split
  · exact hn
  · split
    · exact hm
    · exact hm

/-- A difference has a sound level if both operands have: it is the level of one of them. -/
theorem HasSoundLevel.subtract {n : Measure k} (hm : m.HasSoundLevel) (hn : n.HasSoundLevel) :
    (m.subtract n).HasSoundLevel := by
  unfold Measure.subtract
  split
  · exact hn
  · split
    · exact hm
    · exact hm

theorem HasSoundLevel.multiply (hm : m.HasSoundLevel) (factor : Rational) :
    (m.multiply factor).HasSoundLevel := by
  have hlevel : (m.multiply factor).level = m.level := level_simplify _
  rwa [HasSoundLevel, hlevel]

/-- A quotient is a product with the inverse. -/
theorem exists_of_divide {n : Measure k} {divisor : Rational} (h : m.divide divisor = .ok n) :
    ∃ inverse, n = m.multiply inverse := by
  unfold divide at h
  split at h
  · rename_i inverse _
    cases h
    exact ⟨inverse, rfl⟩
  · cases h

/-- Where a set is accepted, the measure is brought into it. -/
theorem eq_converted_of_toSet {n : Measure k} {index : ℕ} {simplify : Bool}
    (h : m.toSet index simplify = .ok n) : n = m.converted index simplify := by
  unfold toSet at h
  split at h <;> cases h
  rfl

/-- **Every measure that can be obtained** has the slots of its set and a level that a record can
tell. -/
theorem Obtained.sound (h : Obtained m) : m.WellFormed ∧ m.HasSoundLevel := by
  induction h with
  | undefined => exact ⟨.undefined _, .inl rfl⟩
  | ofSlots h => exact ⟨.of_ofSlots h, .inl (level_of_ofSlots h)⟩
  | inSet h =>
    obtain ⟨index, -, hmade⟩ := exists_ofSlots_of_inSet h
    exact ⟨.of_ofSlots hmade, .inl (level_of_ofSlots hmade)⟩
  | @read cs rest m h =>
    refine ⟨wellFormed_of_read h, .inl ?_⟩
    have hlevel := level_readOnto (Measure.undefined : Measure k) cs
    rwa [read_eq_some h] at hlevel
  | @withLevel m _ level hlevel ih =>
    refine ⟨?_, .inr ⟨le_max_right _ _, ?_⟩⟩
    · cases ih.1 with
      | undefined => exact .undefined _
      | inSet hset hslots => exact .inSet hset hslots
    · change Fits (max level 1)
      unfold Fits minStored maxStored at *
      omega
  | @toSet m n _ index simplify h ih =>
    obtain rfl := eq_converted_of_toSet h
    refine ⟨ih.1.converted index simplify, ?_⟩
    rw [HasSoundLevel, level_converted]
    exact ih.2
  | @simplify m _ ih =>
    refine ⟨ih.1.simplify, ?_⟩
    rw [HasSoundLevel, level_simplify]
    exact ih.2
  | add _ _ ihm ihn => exact ⟨ihm.1.add ihn.1, ihm.2.add ihn.2⟩
  | subtract _ _ ihm ihn => exact ⟨ihm.1.subtract ihn.1, ihm.2.subtract ihn.2⟩
  | multiply _ factor ih => exact ⟨ih.1.multiply factor, ih.2.multiply factor⟩
  | divide _ h ih =>
    obtain ⟨inverse, rfl⟩ := exists_of_divide h
    exact ⟨ih.1.multiply inverse, ih.2.multiply inverse⟩

/-! ## The contents of a record -/

/-- The numbers in the record of a slot. -/
def slotParts (slot : Option Rational) : Option (ℤ × ℤ × ℤ) := slot.map Rational.signedParts

/-- The level in a record, unless it is the usual one. -/
def levelPart (m : Measure k) : Option ℤ := if m.level = k.level then none else some m.level

variable {slots : Slots}

/-- The record of slots has the parts of each amount, and null for an empty slot. -/
theorem mapM_ofSlots (h : ∀ r, some r ∈ slots → r.Canonical) :
    (slots.map (Json.ofOption ofRational)).mapM (nullable mixedParts?) =
      some (slots.map slotParts) := by
  induction slots with
  | nil => rfl
  | cons slot slots ih =>
    have hrest := ih fun r hr => h r (List.mem_cons_of_mem _ hr)
    have hslot : nullable mixedParts? (Json.ofOption ofRational slot) = some (slotParts slot) := by
      cases slot with
      | none => rfl
      | some r =>
        have hread := Rational.mixedParts?_ofRational (h r List.mem_cons_self)
        have hrecord : ofRational r ≠ Json.null := by
          rw [Rational.ofRational_eq]
          exact record_ne_null _
        rw [Json.ofOption, nullable_of_ne_null hrecord, hread]
        rfl
    rw [List.map_cons, List.mapM_cons, hslot, hrest]
    rfl

/-- Canonical amounts come back from their parts. -/
theorem mapM_slotOf (h : ∀ r, some r ∈ slots → r.Canonical) :
    (slots.map slotParts).mapM slotOf = .ok slots := by
  induction slots with
  | nil => rfl
  | cons slot slots ih =>
    have hrest := ih fun r hr => h r (List.mem_cons_of_mem _ hr)
    have hslot : slotOf (slotParts slot) = .ok slot := by
      cases slot with
      | none => rfl
      | some r =>
        change (rationalOf r.signedParts).map some = _
        rw [Rational.rationalOf_signedParts (h r List.mem_cons_self)]
        rfl
    rw [List.map_cons, List.mapM_cons, hslot, hrest]
    rfl

/-- **The record of a measure** has the name of its set, its slots, and its level if that is not the
usual one. -/
theorem measureParts?_ofMeasure (hlevel : m.HasSoundLevel)
    (hslots : ∀ r, some r ∈ m.slots → r.Canonical) :
    measureParts? (ofMeasure m) =
      some ⟨m.activeSet.map (·.name), m.slots.map slotParts, m.levelPart⟩ := by
  have hset : nullable text? (Json.ofOption (fun set : UnitSet => Json.text set.name) m.activeSet) =
      some (m.activeSet.map (·.name)) := by
    cases m.activeSet <;> rfl
  have hvalues := mapM_ofSlots hslots
  unfold ofMeasure levelPart
  by_cases husual : m.level = k.level
  · rw [if_pos husual, if_pos husual, List.append_nil, measureParts?,
      fields?_record (by simp) (by simp)]
    simp [Fields.optional, Fields.withDefault, get?_cons, get?_nil, hset, items?, hvalues]
  · have hfits := (hlevel.resolve_left husual).2
    rw [if_neg husual, if_neg husual, measureParts?, List.cons_append, List.cons_append,
      List.nil_append, fields?_record (by simp) (by simp)]
    simp [Fields.optional, Fields.withDefault, get?_cons, hset, items?, hvalues,
      nullable_int hfits]

/-- Decoding an encoded measure looks up its set by name, and takes slots and level as they were. -/
theorem decode_encode_eq (hlevel : m.HasSoundLevel)
    (hslots : ∀ r, some r ∈ m.slots → r.Canonical) :
    Recorded.decode (Recorded.encode m) =
      measureOf k ⟨m.activeSet.map (·.name), m.slots.map slotParts, m.levelPart⟩ := by
  change (do measureOf k (← shaped (measureParts? (ofMeasure m)))) = _
  rw [measureParts?_ofMeasure hlevel hslots]
  rfl

/-! ## The measure of a record -/

theorem set_of_ofSlots {index : ℕ} (h : ofSlots k index slots = .ok m) : m.set = some index := by
  unfold ofSlots at h
  split at h
  · cases h
  · split at h <;> cases h
    rfl

/-- Slots are accepted for a set if there is one for every unit. -/
theorem ofSlots_eq_ok {index : ℕ} {set : UnitSet} (hset : k.family.sets[index]? = some set)
    (hslots : slots.length = set.units.length) :
    ofSlots k index slots = .ok ⟨some index, slots, k.level⟩ := by
  simp only [ofSlots, hset, hslots, ne_eq, not_true, if_false]

/-- A record without a set gives the undefined measure. -/
theorem decode_encode_undefined {level : ℤ}
    (hlevel : (⟨none, [], level⟩ : Measure k).HasSoundLevel) :
    Recorded.decode (Recorded.encode (⟨none, [], level⟩ : Measure k)) =
      .ok (undefined : Measure k) := by
  rw [decode_encode_eq hlevel (by rintro r ⟨⟩)]
  rfl

/-- **A record with a set** gives the slots and the level in the first set of that name. -/
theorem decode_encode_inSet {index : ℕ} {set : UnitSet} {level : ℤ}
    (hset : k.family.sets[index]? = some set)
    (hlevel : (⟨some index, slots, level⟩ : Measure k).HasSoundLevel)
    (hslots : ∀ r, some r ∈ slots → r.Canonical) :
    Recorded.decode (Recorded.encode (⟨some index, slots, level⟩ : Measure k)) =
      (inSet k set.name slots).map fun n => (⟨n.set, n.slots, level⟩ : Measure k) := by
  rw [decode_encode_eq hlevel hslots]
  have hactive : (⟨some index, slots, level⟩ : Measure k).activeSet = some set := hset
  rw [hactive, Option.map_some, measureOf]
  simp only [mapM_slotOf hslots]
  cases hmade : inSet k set.name slots with
  | error failure =>
    change (inSet k set.name slots >>= _) = _
    rw [hmade]
    rfl
  | ok n =>
    obtain ⟨j, -, hn⟩ := exists_ofSlots_of_inSet hmade
    have husual := level_of_ofSlots hn
    change (inSet k set.name slots >>= _) = _
    rw [hmade]
    by_cases heq : level = k.level
    · -- the level was left out
      rw [levelPart, if_pos heq, heq, ← husual]
      rfl
    · obtain ⟨hone, -⟩ := hlevel.resolve_left heq
      rw [levelPart, if_neg heq]
      change Except.ok (n.withLevel level) = _
      rw [withLevel, max_eq_left hone]
      rfl

/-- **A measure is restored** from its record exactly if it has the usual level where it is
undefined, and no earlier set goes by the name of its own. -/
theorem decode_encode_iff (hm : Obtained m) (hslots : ∀ r, some r ∈ m.slots → r.Canonical) :
    Recorded.decode (Recorded.encode m) = .ok m ↔
      (m.set = none → m.level = k.level) ∧
      ∀ index set, m.set = some index → k.family.sets[index]? = some set →
        k.family.indexOf set.name = some index := by
  obtain ⟨hwf, hlevel⟩ := hm.sound
  cases hwf with
  | undefined level =>
    rw [decode_encode_undefined hlevel]
    constructor
    · intro h
      refine ⟨fun _ => ?_, by rintro index set ⟨⟩⟩
      rw [← Except.ok.inj h]
      rfl
    · rintro ⟨h, -⟩
      rw [show level = k.level from h rfl]
      rfl
  | @inSet index set slots level hset hlength =>
    rw [decode_encode_inSet hset hlevel hslots]
    constructor
    · intro h
      refine ⟨by rintro ⟨⟩, fun i s hi hs => ?_⟩
      obtain rfl : index = i := Option.some.inj hi
      obtain rfl := Option.some.inj (hset.symm.trans hs)
      cases hmade : Measure.inSet k set.name slots with
      | error failure =>
        rw [hmade] at h
        cases h
      | ok n =>
        obtain ⟨j, hj, hn⟩ := exists_ofSlots_of_inSet hmade
        rw [hmade] at h
        have hsame : n.set = some index := congrArg Measure.set (Except.ok.inj h)
        rw [hj, ← hsame, set_of_ofSlots hn]
    · rintro ⟨-, h⟩
      rw [Measure.inSet, h index set rfl hset]
      simp only [ofSlots_eq_ok hset hlength]
      rfl

/-- A meter with a level of its own. -/
theorem decode_encode_meter :
    Obtained (⟨some 1, [none, some .one, none], 7⟩ : Measure (.standard .distance)) ∧
    Recorded.decode (Recorded.encode
        (⟨some 1, [none, some .one, none], 7⟩ : Measure (.standard .distance))) =
      .ok (⟨some 1, [none, some .one, none], 7⟩ : Measure (.standard .distance)) := by
  have hmeter : ofSlots (.standard .distance) 1 [none, some .one, none] =
      .ok ⟨some 1, [none, some .one, none], 3⟩ := rfl
  have hm : Obtained (⟨some 1, [none, some .one, none], 7⟩ : Measure (.standard .distance)) :=
    (Obtained.ofSlots hmeter).withLevel (show Fits 7 by decide)
  refine ⟨hm, (decode_encode_iff hm ?_).mpr ⟨by rintro ⟨⟩, ?_⟩⟩
  · intro r hr
    obtain rfl : r = .one := by simpa using hr
    exact Rational.canonical_iff.mpr (.inr (by decide))
  · intro index set hindex hset
    obtain rfl : 1 = index := Option.some.inj hindex
    obtain rfl := Option.some.inj hset
    decide

/-- **The level of an undefined measure is lost**, although it is recorded. -/
theorem decode_encode_undefined_withLevel :
    ∃ m : Measure (.standard .distance), Obtained m ∧ (∀ r, some r ∈ m.slots → r.Canonical) ∧
      m = undefined.withLevel 7 ∧ m.level = 7 ∧
      Recorded.decode (Recorded.encode m) = .ok (undefined : Measure (.standard .distance)) ∧
      Recorded.decode (Recorded.encode m) ≠ .ok m := by
  have hm : Obtained (undefined.withLevel 7 : Measure (.standard .distance)) :=
    .withLevel .undefined (by decide)
  have hrestored := decode_encode_undefined hm.sound.2
  refine ⟨_, hm, by rintro r ⟨⟩, rfl, rfl, hrestored, fun h => ?_⟩
  exact absurd (hrestored.symm.trans h) (by decide)

/-- Two sets whose names differ in their capitals only. -/
def twins : Kind :=
  .declared "twins" 1 ⟨[⟨"A", 1, 1, [⟨"x", "x", 1, 1, []⟩]⟩, ⟨"a", 1, 1, [⟨"y", "y", 1, 1, []⟩]⟩]⟩

/-- **A measure comes back in another set** where an earlier one goes by the same name. -/
theorem decode_encode_twins :
    Family.parse "1/1 : A = 1/1 : x. 1/1 : a = 1/1 : y" = .ok twins.family ∧
    Recorded.decode (Recorded.encode (⟨some 1, [some .one], 1⟩ : Measure twins)) =
      .ok (⟨some 0, [some .one], 1⟩ : Measure twins) := by
  constructor
  · exact Family.parse_eq_ok_of_chars String.toList_ofList rfl
  · have hset : twins.family.sets[1]? = some ⟨"a", 1, 1, [⟨"y", "y", 1, 1, []⟩]⟩ := rfl
    have hlevel : (⟨some 1, [some .one], 1⟩ : Measure twins).HasSoundLevel := .inl rfl
    rw [decode_encode_inSet hset hlevel]
    · rfl
    · intro r hr
      obtain rfl : r = .one := by simpa using hr
      exact Rational.canonical_iff.mpr (.inr (by decide))

end Measure

end Tabletop
