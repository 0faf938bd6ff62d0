import Tabletop.Measure.Text
import Tabletop.Proofs.Measure.Arithmetic

/-!
# What is read as a measure

A measure is read pair by pair: an amount, and a unit that decides the set if it is the first one.

* a unit that is read belongs to the set in use, or to the first set that has it
  (`Family.readUnit_eq_some`);
* giving one amount keeps a measure well formed (`WellFormed.give`), and so **whatever is read is
  well formed** (`wellFormed_of_read`).
-/

namespace Tabletop

namespace Family

/-- **A unit is read** from the first set that knows it. -/
theorem readUnitFrom_eq_some {sets : List UnitSet} {cs rest : List Char} :
    ∀ {start index unit : ℕ}, readUnitFrom start sets cs = (some (index, unit), rest) →
      ∃ before s after, sets = before ++ s :: after ∧ index = start + before.length ∧
        (∀ t ∈ before, (t.readUnit cs).1 = none) ∧ s.readUnit cs = (some unit, rest) := by
  induction sets with
  | nil =>
    intro start index unit h
    cases h
  | cons set sets ih =>
    intro start index unit h
    rw [readUnitFrom] at h
    split at h
    · rename_i hread
      cases h
      exact ⟨[], set, sets, rfl, rfl, by rintro t ⟨⟩, hread⟩
    · rename_i hread
      obtain ⟨before, s, after, rfl, rfl, hbefore, hs⟩ := ih h
      refine ⟨set :: before, s, after, rfl, ?_, fun t ht => ?_, hs⟩
      · rw [List.length_cons]
        omega
      · rcases List.mem_cons.mp ht with rfl | ht
        · rw [hread]
        · exact hbefore t ht

/-- A unit that is read belongs to the set given, or to the first set that has it. -/
theorem readUnit_eq_some {f : Family} {set : Option ℕ} {cs rest : List Char} {index unit : ℕ}
    (h : f.readUnit set cs = (some (index, unit), rest)) :
    (∀ i ∈ set, index = i) ∧
      ∃ s, f.sets[index]? = some s ∧ s.readUnit cs = (some unit, rest) := by
  cases set with
  | none =>
    obtain ⟨before, s, after, hsets, hindex, -, hs⟩ :=
      readUnitFrom_eq_some (h : readUnitFrom 0 _ _ = _)
    refine ⟨by rintro i ⟨⟩, s, ?_, hs⟩
    rw [hsets, hindex, Nat.zero_add, List.getElem?_append_right (Nat.le_refl _), Nat.sub_self]
    rfl
  | some i =>
    change readUnitFrom i (f.sets[i]?).toList cs = _ at h
    cases hget : f.sets[i]? with
    | none =>
      rw [hget] at h
      cases h
    | some s =>
      rw [hget, Option.toList_some, readUnitFrom] at h
      split at h
      · rename_i hread
        cases h
        exact ⟨by rintro j ⟨⟩; rfl, s, hget, hread⟩
      · cases h

/-- A pair is an amount that is not negative and a unit behind it. -/
theorem readPair_eq_some {f : Family} {set : Option ℕ} {cs rest : List Char} {amount : Rational}
    {index unit : ℕ} (h : f.readPair set cs = (some (amount, index, unit), rest)) :
    ∃ behind, Rational.read cs = (some amount, behind) ∧ amount.negative = false ∧
      f.readUnit set behind = (some (index, unit), rest) := by
  unfold readPair at h
  split at h
  · cases h
  · rename_i behind hamount
    split at h
    · cases h
    · rename_i hnegative
      split at h
      · rename_i hunit
        cases h
        exact ⟨behind, hamount, by simpa using hnegative, hunit⟩
      · cases h

end Family

namespace Measure

variable {k : Kind} {m : Measure k}

/-! ## Amounts given one by one -/

/-- A pair that is given keeps a measure well-formed, and it stays in its set. -/
theorem WellFormed.give (hm : m.WellFormed) {amount : Rational} {index unit : ℕ} {s : UnitSet}
    (hindex : ∀ i ∈ m.set, index = i) (hs : k.family.sets[index]? = some s) :
    (m.give amount index unit).WellFormed := by
  cases hm with
  | undefined =>
    refine .inSet hs ?_
    simp only [hs, List.length_modify, List.length_map]
  | inSet hset hslots =>
    obtain rfl := hindex _ rfl
    refine .inSet hset ?_
    simp only [List.length_modify, hslots]

/-- Reading on keeps a measure well-formed, whatever follows. -/
theorem WellFormed.readOnto (cs : List Char) (hm : m.WellFormed) :
    (m.readOnto cs).1.WellFormed := by
  induction m, cs using Measure.readOnto.induct with
  | case1 m cs rest hread =>
    rw [readOnto_of_none hread]
    exact hm
  | case2 m cs amount index unit rest hread ih =>
    obtain ⟨behind, -, -, hunit⟩ := Family.readPair_eq_some hread
    obtain ⟨hindex, s, hs, -⟩ := Family.readUnit_eq_some hunit
    rw [readOnto_of_some hread]
    exact ih (hm.give hindex hs)

/-- A measure is read by reading on from nothing. -/
theorem read_eq_some {cs rest : List Char} (h : read k cs = (some m, rest)) :
    (undefined : Measure k).readOnto cs = (m, rest) := by
  unfold read at h
  split at h
  rename_i hread
  split at h
  · cases h
    exact hread
  · cases h

/-- **Whatever is read is well formed.** -/
theorem wellFormed_of_read {cs rest : List Char} (h : read k cs = (some m, rest)) :
    m.WellFormed := by
  have hundefined : (undefined : Measure k).WellFormed := .undefined k.level
  have hread := hundefined.readOnto cs
  rwa [read_eq_some h] at hread

/-- Whatever is read is defined. -/
theorem isDefined_of_read {cs rest : List Char} (h : read k cs = (some m, rest)) :
    m.isDefined = true := by
  unfold read at h
  split at h
  split at h
  · cases h
    assumption
  · cases h

/-- Inversion of `parse`. -/
theorem exists_read_of_parse {source : String} (h : parse k source = .ok m) :
    ∃ rest, read k source.toList = (some m, rest) := by
  unfold parse at h
  split at h
  · rename_i rest hread
    split at h
    · cases h
      exact ⟨rest, hread⟩
    · cases h
  · cases h

end Measure

end Tabletop
