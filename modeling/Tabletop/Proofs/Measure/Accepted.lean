import Mathlib.Data.List.Nodup
import Tabletop.Proofs.Measure.Amount
import Tabletop.Proofs.Rational.Canonical

/-!
# What an accepted definition defines

A definition that is read has passed the checks of units, sets and families. What is known of a
family then, without a look at its definition?

* **IsWellFormed** sets have positive ratios, one base unit, which the base index tells, and no
  spelling of two units. The check goes through a list of spellings in which a plural like the name
  is left out (`UnitSet.nodup_of_repeated?`); the names of a unit are the same either way
  (`MeasureUnit.mem_spellings`);
* where no spelling is of two units, a unit is **found** by a text exactly if the text is one of its
  names (`UnitSet.findUnit_eq_some_iff`);
* where ratios are positive, an amount is **counted back** from base units to what it was
  (`MeasureUnit.fromBase_asBase`).

So an accepted family has sets, all well formed (`Family.wellFormed_of_parse`).
-/

namespace Tabletop

open Rational

/-! ## Spellings -/

/-- A plural that is left out, because it is like the name, is among the spellings all the same. -/
theorem MeasureUnit.mem_spellings {u : MeasureUnit} {name : String} :
    name ∈ u.spellings ↔ name ∈ u.names := by
  rw [spellings, names, List.mem_cons, List.mem_cons, List.mem_append, List.mem_cons]
  by_cases h : u.plural = u.name
  · rw [if_pos h, h]
    simp
  · rw [if_neg h, List.mem_singleton]

namespace UnitSet

/-- No spelling occurs a second time exactly if there are no duplicates, nor any of those `seen`. -/
theorem repeated?_eq_none_iff {seen names : List String} :
    repeated? seen names = none ↔ names.Nodup ∧ ∀ name ∈ names, name ∉ seen := by
  induction names generalizing seen with
  | nil => simp [repeated?]
  | cons name names ih =>
    rw [repeated?, List.nodup_cons, List.forall_mem_cons]
    split_ifs with hseen
    · exact iff_of_false (by rintro ⟨⟩) fun h => h.2.1 hseen
    · rw [ih]
      constructor
      · rintro ⟨hnodup, hnames⟩
        exact ⟨⟨fun hmem => hnames name hmem List.mem_cons_self, hnodup⟩, hseen,
          fun n hn hmem => hnames n hn (List.mem_cons_of_mem name hmem)⟩
      · rintro ⟨⟨hname, hnodup⟩, -, hnames⟩
        refine ⟨hnodup, fun n hn hmem => ?_⟩
        rcases List.mem_cons.mp hmem with rfl | hmem
        · exact hname hn
        · exact hnames n hn hmem

/-- What a set must be for amounts to be converted and for its units to be told by their names. -/
structure IsWellFormed (s : UnitSet) : Prop where
  ratio_pos : 0 < s.multiplier ∧ 0 < s.divisor
  units_pos : ∀ u ∈ s.units, 0 < u.multiplier ∧ 0 < u.divisor
  /-- the base index tells a unit with the ratio one to one -/
  base_unit : ∃ u, s.units[s.baseIndex]? = some u ∧ u.multiplier = 1 ∧ u.divisor = 1
  /-- and there is no other one -/
  base_unique : ∀ (i : ℕ) (u : MeasureUnit), s.units[i]? = some u →
    u.multiplier = 1 → u.divisor = 1 → i = s.baseIndex
  /-- no spelling belongs to two units -/
  names_apart : ∀ (i j : ℕ) (u v : MeasureUnit), s.units[i]? = some u → s.units[j]? = some v →
    ∀ name ∈ u.names, name ∈ v.names → i = j

variable {s : UnitSet}

/-- Spellings of which none occurs twice are those of one unit each. -/
theorem names_apart_of_nodup {units : List MeasureUnit}
    (h : (units.flatMap MeasureUnit.spellings).Nodup) {i j : ℕ} {u v : MeasureUnit}
    (hi : units[i]? = some u) (hj : units[j]? = some v) {name : String} (hu : name ∈ u.names)
    (hv : name ∈ v.names) : i = j := by
  obtain ⟨hlt, rfl⟩ := List.getElem?_eq_some_iff.mp hi
  obtain ⟨hlt', rfl⟩ := List.getElem?_eq_some_iff.mp hj
  have hpairwise := List.pairwise_iff_getElem.mp (List.nodup_flatMap.mp h).2
  rw [← MeasureUnit.mem_spellings] at hu hv
  rcases Nat.lt_trichotomy i j with hij | hij | hij
  · exact absurd hv (hpairwise i j hlt hlt' hij hu)
  · exact hij
  · exact absurd hu (hpairwise j i hlt' hlt hij hv)

/-- Where one element meets a condition, it is the first that does. -/
theorem eq_findIdx_of_countP {α : Type} {p : α → Bool} {xs : List α} (h : xs.countP p = 1) {i : ℕ}
    {x : α} (hi : xs[i]? = some x) (hx : p x = true) : i = xs.findIdx p := by
  induction xs generalizing i with
  | nil => cases hi
  | cons y ys ih =>
    rw [List.findIdx_cons]
    cases hy : p y with
    | true =>
      -- the first one is it, so there is none behind it
      rw [List.countP_cons_of_pos hy, Nat.add_eq_right, List.countP_eq_zero] at h
      cases i with
      | zero => rfl
      | succ i => exact absurd hx (h x (List.mem_of_getElem? hi))
    | false =>
      rw [List.countP_cons_of_neg (by simp [hy])] at h
      cases i with
      | zero =>
        obtain rfl : y = x := Option.some.inj hi
        rw [hy] at hx
        cases hx
      | succ i => exact congrArg (· + 1) (ih h hi)

/-- **A checked set is well formed.** -/
theorem IsChecked.isWellFormed (hs : s.IsChecked) : s.IsWellFormed := by
  obtain ⟨hmultiplier, hdivisor, hcount, hnames, -⟩ := make_eq_ok hs.made
  obtain ⟨hnodup, -⟩ := repeated?_eq_none_iff.mp hnames
  refine ⟨⟨hmultiplier, hdivisor⟩, hs.units_pos, ?_, ?_, ?_⟩
  · obtain ⟨u, hu, hbase⟩ := hs.exists_base
    have hlt : s.baseIndex < s.units.length := List.findIdx_lt_length_of_exists ⟨u, hu, hbase⟩
    have hfound : s.units[s.baseIndex].isBase = true := List.findIdx_getElem
    exact ⟨_, List.getElem?_eq_getElem hlt, by simpa [MeasureUnit.isBase] using hfound⟩
  · intro i u hi hm hd
    exact eq_findIdx_of_countP hcount hi (by simp [MeasureUnit.isBase, hm, hd])
  · intro i j u v hi hj name hu hv
    exact names_apart_of_nodup hnodup hi hj hu hv

namespace IsWellFormed

/-- **A unit is found** by its names, and by no other text. -/
theorem findUnit_eq_some_iff (hs : s.IsWellFormed) {name : String} {i : ℕ} :
    s.findUnit name = some i ↔ ∃ u, s.units[i]? = some u ∧ name ∈ u.names := by
  rw [findUnit, List.findIdx?_eq_some_iff_getElem]
  constructor
  · rintro ⟨hlt, hname, -⟩
    exact ⟨_, List.getElem?_eq_getElem hlt, by simpa using hname⟩
  · rintro ⟨u, hi, hname⟩
    obtain ⟨hlt, rfl⟩ := List.getElem?_eq_some_iff.mp hi
    refine ⟨hlt, by simpa using hname, fun j hj hfound => ?_⟩
    have hsame := hs.names_apart j i _ _ (List.getElem?_eq_getElem (hj.trans hlt)) hi name
      (by simpa using hfound) hname
    omega

end IsWellFormed

/-- No unit is found by a text that is no unit's name. -/
theorem findUnit_eq_none_iff {name : String} :
    s.findUnit name = none ↔ ∀ u ∈ s.units, name ∉ u.names := by
  simp [findUnit]

end UnitSet

/-! ## Amounts counted in base units and back -/

/-- Scaling keeps a value canonical where no step is cut. -/
theorem Rational.Canonical.scaleBy {r : Rational} (hr : r.Canonical) {n d : ℤ} (hd : d ≠ 0)
    (h : Lossless (r.scaleSteps n d)) : (r.scaleBy n d).Canonical := by
  obtain ⟨hmul, hdiv, -⟩ := by simpa only [scaleSteps, lossless_cons] using h
  cases hdef : r.isDefined with
  | false => rwa [scaleBy_of_undefined hdef n hd]
  | true =>
    rw [scaleBy_eq_ofRat hdef n hd hmul]
    exact canonical_ofRat hdiv

namespace MeasureUnit

/-- The exact results of the steps of counting an amount in base units and back. -/
def backSteps (u : MeasureUnit) (amount : Rational) : List ℚ :=
  amount.scaleSteps u.multiplier u.divisor ++ (u.asBase amount).scaleSteps u.divisor u.multiplier

/-- **Counted in base units and back**, an amount is the same, the undefined one included. -/
theorem fromBase_asBase {u : MeasureUnit} (hu : 0 < u.multiplier ∧ 0 < u.divisor)
    {amount : Rational} (hamount : amount.Canonical) (h : Lossless (u.backSteps amount)) :
    u.fromBase (u.asBase amount) = amount := by
  obtain ⟨hto, hfrom⟩ := lossless_append.mp h
  have hm : (u.multiplier : ℚ) ≠ 0 := by exact_mod_cast hu.1.ne'
  have hd : (u.divisor : ℚ) ≠ 0 := by exact_mod_cast hu.2.ne'
  have hbase : (u.asBase amount).toRat = amount.toRat * u.multiplier / u.divisor :=
    toRat_scaleBy hu.2.ne' hto
  have hcanonical : (u.asBase amount).Canonical := hamount.scaleBy hu.2.ne' hto
  refine Canonical.ext (hcanonical.scaleBy hu.1.ne' hfrom) hamount ?_ ?_
  · exact (isDefined_scaleBy _ _ hu.1.ne').trans (isDefined_scaleBy _ _ hu.2.ne')
  · rw [fromBase, toRat_scaleBy hu.1.ne' hfrom, hbase]
    field_simp

end MeasureUnit

/-! ## Accepted families -/

namespace Family

/-- **An accepted family** has sets, and all of them are well formed; units are found by their names
and by no other text, and amounts are counted in base units and back without a change. -/
theorem wellFormed_of_parse {definition : String} {f : Family} (h : parse definition = .ok f) :
    f.sets ≠ [] ∧ ∀ s ∈ f.sets, s.IsWellFormed ∧
      (∀ i u, s.units[i]? = some u → ∀ name ∈ u.names, s.findUnit name = some i) ∧
      (∀ name, (∀ u ∈ s.units, name ∉ u.names) → s.findUnit name = none) ∧
      ∀ u ∈ s.units, ∀ amount : Rational, amount.Canonical → Lossless (u.backSteps amount) →
        u.fromBase (u.asBase amount) = amount := by
  have hsets : f.sets ≠ [] := by
    obtain ⟨sets, -, hmade⟩ := bind_eq_ok h
    unfold make at hmade
    split at hmade
    · cases hmade
    · rename_i hne
      cases hmade
      exact hne
  refine ⟨hsets, fun s hs => ?_⟩
  have hwf := (isChecked_of_parse h s hs).isWellFormed
  refine ⟨hwf, fun i u hi name hname => ?_, fun name => UnitSet.findUnit_eq_none_iff.mpr, ?_⟩
  · exact hwf.findUnit_eq_some_iff.mpr ⟨u, hi, hname⟩
  · intro u hu amount hamount hsteps
    exact MeasureUnit.fromBase_asBase (hwf.units_pos u hu) hamount hsteps

/-- Two sets with a blank entry behind each, several spellings, and a plural that is the name. -/
def oldAndNewCoins : String :=
  "1/1 : old = 10/1 : pp|pps : platinum, , 1/1 : gp|gp : gold. . 2/5 : new = 1/1 : my"

theorem wellFormed_of_parse_coins :
    ∃ f, parse oldAndNewCoins = .ok f ∧ f.sets.length = 2 ∧
      ∀ s ∈ f.sets, s.name = "old" →
        s.baseIndex = 1 ∧ s.findUnit "platinum" = some 0 ∧ s.findUnit "my" = none ∧
        ∀ u ∈ s.units, u.fromBase (u.asBase (.signed 1 2 3)) = .signed 1 2 3 := by
  have hparse : parse oldAndNewCoins =
      .ok ⟨[⟨"old", 1, 1, [⟨"pp", "pps", 10, 1, ["platinum"]⟩, ⟨"gp", "gp", 1, 1, ["gold"]⟩]⟩,
        ⟨"new", 2, 5, [⟨"my", "my", 1, 1, []⟩]⟩]⟩ :=
    parse_eq_ok_of_chars String.toList_ofList rfl
  obtain ⟨-, hsets⟩ := wellFormed_of_parse hparse
  refine ⟨_, hparse, rfl, fun s hs hname => ?_⟩
  obtain ⟨hwf, hfound, hnone, hback⟩ := hsets s hs
  obtain rfl | rfl := by simpa using hs
  · refine ⟨rfl, hfound 0 _ rfl "platinum" (by decide), hnone "my" (by decide), ?_⟩
    intro u hu
    refine hback u hu _ (canonical_iff.mpr (.inr (by decide))) ?_
    obtain rfl | rfl := by simpa using hu
    · decide +kernel
    · decide +kernel
  · exact absurd hname (by decide)

end Family

end Tabletop
