import Tabletop.Measure.Bucket
import Tabletop.Proofs.Measure.Order
import Tabletop.Proofs.Measure.Purse
import Tabletop.Proofs.Rational.Cut
import Tabletop.Proofs.Rational.Operation

/-!
# Buckets in the order of amounts

Distances and prices are put into buckets after they were brought to one scale, where a bound is
compared to the multiple of the amount by its own denominator. Is a larger amount ever put into an
earlier bucket?

* a bucket **admits** just the amounts that do not exceed its bound (`admits_eq`). All bounds can be
  stored, so this holds even where the multiple is cut (`Rational.toRat_ofRat_le_iff`);
* the label of an amount is that of the **first** bucket that admits it (`isFirstFor_labelOf`), and
  its **place** among the labels is the number of buckets before that one (`IsFirstFor.place_eq`);
* a bucket that admits an amount admits all smaller ones, so the places are **in the order** of the
  amounts (`IsFirstFor.in_order`).

With the order of measures that is `buckets_in_order`.
-/

namespace Tabletop

open Rational

namespace Bucket

/-- The largest amount of a bucket. -/
def bound (b : Bucket) : ℚ := b.num / b.den

/-- A bound that is no debt, and far from what is cut. -/
structure IsBounded (b : Bucket) : Prop where
  den_pos : 0 < b.den
  num_nonneg : 0 ≤ b.num
  num_lt : b.num < maxStored

instance (b : Bucket) : Decidable b.IsBounded :=
  decidable_of_iff (0 < b.den ∧ 0 ≤ b.num ∧ b.num < maxStored)
    ⟨fun ⟨hden, hnum, hlt⟩ => ⟨hden, hnum, hlt⟩, fun ⟨hden, hnum, hlt⟩ => ⟨hden, hnum, hlt⟩⟩

/-- The buckets of distances have bounds that can be stored. -/
theorem isBounded_distances : ∀ b ∈ distances, b.IsBounded := by
  decide

theorem isBounded_prices : ∀ b ∈ prices, b.IsBounded := by
  decide

variable {b : Bucket} {buckets : List Bucket} {q p : ℚ} {label other : String}

theorem IsBounded.bound_nonneg (hb : b.IsBounded) : 0 ≤ b.bound :=
  div_nonneg (Int.cast_nonneg hb.num_nonneg) (Int.cast_nonneg hb.den_pos.le)

/-- No bound is cut, and what is cut is past all of them. -/
theorem IsBounded.bound_lt (hb : b.IsBounded) : b.bound < maxStored := by
  have hone : (1 : ℚ) ≤ b.den := by exact_mod_cast hb.den_pos
  have hle : b.bound ≤ b.num := div_le_self (Int.cast_nonneg hb.num_nonneg) hone
  exact hle.trans_lt (Int.cast_lt.mpr hb.num_lt)

/-- **A bucket admits** what does not exceed its bound. -/
theorem admits_eq (hb : b.IsBounded) {r : Rational} (hr : r.isDefined = true)
    (hden : Fits (r.toRat.den : ℤ)) : b.admits r = decide (r.toRat ≤ b.bound) := by
  have hpos : (0 : ℚ) < b.den := by exact_mod_cast hb.den_pos
  have hnum : (b.num.natAbs : ℤ) ≤ maxStored := by
    have hnonneg := hb.num_nonneg
    have hlt := hb.num_lt
    omega
  have hcompare : (r.multiplyInt b.den).compareInt b.num ≠ .gt ↔ r.toRat ≤ b.bound := by
    rw [multiplyInt_eq_ofRat hr, compareInt,
      compare_of_isDefined (isDefined_ofRat _) (isDefined_ofInt _), compare_le_iff_le,
      toRat_ofInt hnum, toRat_ofRat_le_iff (fits_den_mul_intCast hden _)
        (Int.cast_nonneg hb.num_nonneg) (Int.cast_lt.mpr hb.num_lt), bound, le_div_iff₀ hpos]
  exact decide_eq_decide.mpr hcompare

/-! ## Labels and their places -/

/-- All labels, the open one last. -/
def labels (buckets : List Bucket) : List String := buckets.map (·.label) ++ ["Infinite"]

/-- The place of a label. -/
def place (buckets : List Bucket) (label : String) : ℕ := (labels buckets).idxOf label

/-- No label stands for two buckets of distances. -/
theorem nodup_labels_distances : (labels distances).Nodup := by
  simp [labels, distances]

theorem nodup_labels_prices : (labels prices).Nodup := by
  simp [labels, prices]

/-- A label as that of an amount: the one of the first bucket whose bound the amount does not
exceed, or the open one if it exceeds all bounds. -/
def IsFirstFor (buckets : List Bucket) (q : ℚ) (label : String) : Prop :=
  (∃ before b after, buckets = before ++ b :: after ∧ (∀ c ∈ before, c.bound < q) ∧ q ≤ b.bound ∧
    label = b.label) ∨
  (∀ b ∈ buckets, b.bound < q) ∧ label = "Infinite"

/-- **The label that is found** is that of the first bucket for the amount. -/
theorem isFirstFor_labelOf {r : Rational}
    (h : ∀ b ∈ buckets, b.admits r = decide (q ≤ b.bound)) :
    IsFirstFor buckets q (labelOf buckets r) := by
  unfold labelOf
  cases hfind : buckets.find? (·.admits r) with
  | none =>
    refine .inr ⟨fun b hb => ?_, rfl⟩
    have hnot := List.find?_eq_none.mp hfind b hb
    rw [h b hb, decide_eq_true_eq] at hnot
    exact not_le.mp hnot
  | some b =>
    obtain ⟨hadmits, before, after, hsplit, hbefore⟩ := List.find?_eq_some_iff_append.mp hfind
    have hmem : ∀ c ∈ before ++ b :: after, c ∈ buckets := fun c hc => hsplit ▸ hc
    refine .inl ⟨before, b, after, hsplit, fun c hc => ?_, ?_, rfl⟩
    · have hnot := hbefore c hc
      rw [h c (hmem c (List.mem_append_left _ hc)), Bool.not_eq_true', decide_eq_false_iff_not]
        at hnot
      exact not_le.mp hnot
    · rw [h b (hmem b (List.mem_append_right _ List.mem_cons_self))] at hadmits
      exact of_decide_eq_true hadmits

/-- How many buckets an amount passes before it gets to its own. -/
def position (buckets : List Bucket) (q : ℚ) : ℕ := buckets.findIdx fun b => decide (q ≤ b.bound)

/-- A larger amount passes no fewer buckets. -/
theorem position_le (buckets : List Bucket) (hle : q ≤ p) :
    position buckets q ≤ position buckets p :=
  List.findIdx_le_findIdx fun _ _ hp => decide_eq_true (hle.trans (of_decide_eq_true hp))

/-- The label of an amount is at its position. -/
theorem IsFirstFor.getElem?_position (h : IsFirstFor buckets q label) :
    (labels buckets)[position buckets q]? = some label := by
  obtain ⟨before, b, after, rfl, hbefore, hb, rfl⟩ | ⟨hall, rfl⟩ := h
  · have hposition : position (before ++ b :: after) q = before.length := by
      rw [position, List.findIdx_eq (by simp)]
      refine ⟨?_, fun i hi => ?_⟩
      · rw [List.getElem_append_right le_rfl]
        simpa using hb
      · rw [List.getElem_append_left hi]
        simpa using hbefore _ (List.getElem_mem hi)
    simp [hposition, labels]
  · have hposition : position buckets q = buckets.length := by
      rw [position, List.findIdx_eq_length]
      exact fun b hb => decide_eq_false (hall b hb).not_ge
    simp [hposition, labels]

/-- **The place** of an amount's label counts the buckets that the amount passes. -/
theorem IsFirstFor.place_eq (h : IsFirstFor buckets q label) (hlabels : (labels buckets).Nodup) :
    place buckets label = position buckets q := by
  obtain ⟨hlt, hget⟩ := List.getElem?_eq_some_iff.mp h.getElem?_position
  rw [place, ← hget, hlabels.idxOf_getElem]

/-- **Labels are in the order of amounts**, and one amount has one label. -/
theorem IsFirstFor.in_order (h : IsFirstFor buckets q label) (h' : IsFirstFor buckets p other)
    (hlabels : (labels buckets).Nodup) :
    (compare q p ≠ .gt → place buckets label ≤ place buckets other) ∧
      (compare q p = .eq → label = other) := by
  refine ⟨fun hle => ?_, fun heq => ?_⟩
  · rw [h.place_eq hlabels, h'.place_eq hlabels]
    exact position_le buckets (compare_le_iff_le.mp hle)
  · obtain rfl := compare_eq_iff_eq.mp heq
    exact Option.some.inj (h.getElem?_position.symm.trans h'.getElem?_position)

end Bucket

/-! ## Distances and prices -/

open Bucket

namespace Distance

variable {m : Distance}

theorem isChecked_family : (Kind.standard .distance).family.IsChecked :=
  Dimension.isChecked_family .distance

/-- The total in feet is the amount. -/
theorem toRat_inFeet (hm : m.WellFormed) (h : Lossless (m.valueInSteps 0)) :
    m.inFeet.toRat = Measure.amount m := by
  have hvalue := Measure.toRat_valueIn isChecked_family hm rfl h
  rw [inFeet, hvalue]
  simp

/-- **The bucket of a distance** is the first one for its feet. -/
theorem isFirstFor_group (hm : m.WellFormed) (hdef : m.isDefined = true)
    (h : Lossless (m.valueInSteps 0)) : IsFirstFor distances (Measure.amount m) m.group := by
  have hfeet : m.inFeet.isDefined = true := by
    rw [inFeet, Measure.isDefined_valueIn isChecked_family hm rfl, hdef]
  have hstorable : Storable (Measure.amount m) :=
    (Measure.normalized_exact isChecked_family hm (lossless_append.mp h).1).2.2
  have hamount := toRat_inFeet hm h
  rw [group, if_pos hdef]
  refine isFirstFor_labelOf fun b hb => ?_
  rw [admits_eq (isBounded_distances b hb) hfeet (by rw [hamount]; exact hstorable.2), hamount]

end Distance

namespace Money

variable {m : Money}

/-- **The bucket of a price** is the first one for its copper pieces. -/
theorem isFirstFor_group (hm : m.WellFormed) (hdef : m.isDefined = true)
    (h : Lossless m.goldSteps) : IsFirstFor prices (Measure.amount m * 100) m.group := by
  have hgold : m.inGold.isDefined = true := by rw [isDefined_inGold hm, hdef]
  have hstorable : Storable (Measure.amount m) :=
    (Measure.normalized_exact isChecked_family hm (lossless_append.mp h).1).2.2
  have hcopper : m.inGold.multiplyInt 100 = ofRat (Measure.amount m * (100 : ℤ)) := by
    rw [multiplyInt_eq_ofRat hgold, toRat_inGold hm h]
  rw [group, if_pos hdef, hcopper]
  refine isFirstFor_labelOf fun b hb => ?_
  have hbounded := isBounded_prices b hb
  rw [admits_eq hbounded (isDefined_ofRat _) (fits_den_toRat_ofRat _)]
  exact decide_eq_decide.mpr (toRat_ofRat_le_iff (fits_den_mul_intCast hstorable.2 100)
    hbounded.bound_nonneg hbounded.bound_lt)

end Money

/-- **Buckets are in the order of amounts.** The bucket of a distance is the first one whose bound
its feet do not exceed, the open one if there is none; a distance that is not larger than another
one is in no later bucket, and equal distances are in one bucket, whatever sets and units they are
given in. Prices are put into their buckets by their copper pieces in the same way. -/
theorem buckets_in_order :
    (∀ m n : Distance, m.WellFormed → n.WellFormed → m.isDefined = true → n.isDefined = true →
      Lossless (m.valueInSteps 0 ++ n.valueInSteps 0) →
        IsFirstFor distances (Measure.amount m) m.group ∧
        (m.compare n ≠ .gt → place distances m.group ≤ place distances n.group) ∧
        (m.compare n = .eq → m.group = n.group)) ∧
    ∀ m n : Money, m.WellFormed → n.WellFormed → m.isDefined = true → n.isDefined = true →
      Lossless (m.goldSteps ++ n.goldSteps) →
        IsFirstFor prices (Measure.amount m * 100) m.group ∧
        (m.compare n ≠ .gt → place prices m.group ≤ place prices n.group) ∧
        (m.compare n = .eq → m.group = n.group) := by
  refine ⟨fun m n hm hn hmd hnd h => ?_, fun m n hm hn hmd hnd h => ?_⟩
  · obtain ⟨hms, hns⟩ := lossless_append.mp h
    have hcompare := Measure.compare_eq_amount Distance.isChecked_family hm hn hmd hnd
      (lossless_append.mpr ⟨(lossless_append.mp hms).1, (lossless_append.mp hns).1⟩)
    have hfirst := Distance.isFirstFor_group hm hmd hms
    rw [hcompare]
    exact ⟨hfirst, hfirst.in_order (Distance.isFirstFor_group hn hnd hns) nodup_labels_distances⟩
  · obtain ⟨hms, hns⟩ := lossless_append.mp h
    have hcompare := Measure.compare_eq_amount Money.isChecked_family hm hn hmd hnd
      (lossless_append.mpr ⟨(lossless_append.mp hms).1, (lossless_append.mp hns).1⟩)
    -- counted in copper pieces, prices are in the same order
    have hpos : (0 : ℚ) < 100 := by norm_num
    have hcopper (x y : ℚ) : Ord.compare x y = Ord.compare (x * 100) (y * 100) :=
      compare_congr (mul_lt_mul_iff_left₀ hpos).symm (mul_lt_mul_iff_left₀ hpos).symm
    have hfirst := Money.isFirstFor_group hm hmd hms
    rw [hcompare, hcopper]
    exact ⟨hfirst, hfirst.in_order (Money.isFirstFor_group hn hnd hns) nodup_labels_prices⟩

/-- Two meters are five feet, and less than a mile and some feet; five gold pieces are fifty silver
pieces, and more than a tenth of a copper piece. -/
theorem buckets_in_order_twoMeters :
    let meters : Distance := ⟨some 1, [none, some (.ofInt 2), none], 3⟩
    let feet : Distance := ⟨some 0, [none, some (.ofInt 5), none], 3⟩
    let mile : Distance := Measure.mileAndFeet
    let gold : Money := Money.gold 5
    let silver : Money := Money.coins .silver 50
    let tenth : Money := ⟨some 0, [none, none, none, some (.signed 0 1 10)], 1⟩
    meters.compare feet = .eq ∧ meters.group = feet.group ∧
      place distances meters.group ≤ place distances mile.group ∧
      gold.compare silver = .eq ∧ gold.group = silver.group ∧
      place prices tenth.group ≤ place prices gold.group ∧
      IsFirstFor prices (1 / 10) tenth.group := by
  intro meters feet mile gold silver tenth
  obtain ⟨hdistances, hprices⟩ := buckets_in_order
  have hmeters : meters.compare feet = .eq := by decide +kernel
  have hgold : gold.compare silver = .eq := by decide +kernel
  have hsame := hdistances meters feet (.inSet rfl rfl) (.inSet rfl rfl) rfl rfl
    (by decide +kernel)
  have hfurther := hdistances meters mile (.inSet rfl rfl) (.inSet rfl rfl) rfl rfl
    (by decide +kernel)
  have hworth := hprices gold silver (Money.wellFormed_coins .gold 5)
    (Money.wellFormed_coins .silver 50) rfl rfl (by decide +kernel)
  have hless := hprices tenth gold (.inSet rfl rfl) (Money.wellFormed_coins .gold 5) rfl rfl
    (by decide +kernel)
  have htenth : Measure.amount tenth * 100 = 1 / 10 := by decide +kernel
  refine ⟨hmeters, hsame.2.2 hmeters, hfurther.2.1 (by decide +kernel), hgold,
    hworth.2.2 hgold, hless.2.1 (by decide +kernel), ?_⟩
  rw [← htenth]
  exact hless.1

end Tabletop
