import Tabletop.Proofs.Measure.Amount

/-!
# Exact arithmetic of measures

A measure is read as the number it amounts to on its family's scale, and every operation as an
operation on that number:

* **WellFormed** measures have the slots of their set; every operation keeps them so;
* **amount** is the number meant; **normalized** is its stored form (`normalized_exact`), and two
  measures with one amount have one normalized value (`normalized_congr`);
* conversion and simplification keep the amount (`amount_converted`, `amount_simplify`);
* addition adds amounts, whatever the sets (`amount_add`), and so on for the other operations.

**arithmetic_exact** puts this together for the normalized values. All of it assumes that no step is
cut: `convertedSteps`, `addSteps`, … list the exact results of the steps.
-/

namespace Tabletop

open Rational

namespace Measure

variable {k : Kind}

/-- A measure that was never given has no slots; any other has the slots of its set. -/
inductive WellFormed : Measure k → Prop
  | undefined (level : ℤ) : WellFormed ⟨none, [], level⟩
  | inSet {index : ℕ} {set : UnitSet} {slots : Slots} {level : ℤ}
      (hset : k.family.sets[index]? = some set) (hslots : slots.length = set.units.length) :
      WellFormed ⟨some index, slots, level⟩

/-- Amounts are given for the units of a set. -/
theorem WellFormed.of_ofSlots {index : ℕ} {slots : Slots} {m : Measure k}
    (h : ofSlots k index slots = .ok m) : m.WellFormed := by
  unfold ofSlots at h
  split at h
  · cases h
  · rename_i set hset
    split at h
    · cases h
    · rename_i hslots
      cases h
      exact .inSet hset (not_not.mp hslots)

/-! ## The amount of a measure -/

/-- The number that a measure amounts to on the family's scale; nothing given counts as zero. -/
def amount (m : Measure k) : ℚ :=
  match m.activeSet with
  | some set => exactTotal set.units m.slots * set.divisor / set.multiplier
  | none => 0

/-- The exact results of the steps of `normalized`. -/
def normalizedSteps (m : Measure k) : List ℚ :=
  match m.activeSet with
  | some set =>
    set.asBaseSteps m.slots ++ (set.asBase m.slots).scaleSteps set.divisor set.multiplier
  | none => []

section InSet

variable {index : ℕ} {set : UnitSet} {slots : Slots} {level : ℤ}

theorem activeSet_inSet (hset : k.family.sets[index]? = some set) :
    (⟨some index, slots, level⟩ : Measure k).activeSet = some set := hset

/-- **What a measure in a set amounts to**: the total of its slots, by the ratio of the set. -/
theorem amount_inSet (hset : k.family.sets[index]? = some set) :
    (⟨some index, slots, level⟩ : Measure k).amount =
      exactTotal set.units slots * set.divisor / set.multiplier := by
  rw [amount, activeSet_inSet hset]

end InSet

variable {m n : Measure k}

theorem amount_of_undefined (h : m.isDefined = false) : m.amount = 0 := by
  obtain ⟨_ | index, slots, level⟩ := m
  · rfl
  · cases h

/-- The normalized amount is defined if the measure is. -/
theorem isDefined_normalized (hk : k.family.IsChecked) (hm : m.WellFormed) :
    m.normalized.isDefined = m.isDefined := by
  cases hm with
  | undefined => rfl
  | inSet hset =>
    have hs := hk _ (List.mem_of_getElem? hset)
    rw [normalized, activeSet_inSet hset]
    exact (isDefined_scaleBy _ _ hs.multiplier_pos.ne').trans (UnitSet.isDefined_asBase _ _)

/-- **A measure is normalized** to its amount. -/
theorem normalized_exact (hk : k.family.IsChecked) (hm : m.WellFormed)
    (h : Lossless m.normalizedSteps) :
    m.normalized.Canonical ∧ m.normalized.toRat = m.amount ∧ Storable m.amount := by
  cases hm with
  | undefined => exact ⟨canonical_undefined, rfl, storable_zero⟩
  | inSet hset =>
    have hs := hk _ (List.mem_of_getElem? hset)
    rw [normalizedSteps, activeSet_inSet hset] at h
    obtain ⟨hbase, hscale⟩ := lossless_append.mp h
    obtain ⟨hmul, hdiv, -⟩ := by simpa only [scaleSteps, lossless_cons] using hscale
    rw [normalized, activeSet_inSet hset, amount_inSet hset, ← UnitSet.toRat_asBase hs hbase]
    simp only
    rw [scaleBy_eq_ofRat (UnitSet.isDefined_asBase _ _) _ hs.multiplier_pos.ne' hmul]
    exact ⟨canonical_ofRat hdiv, toRat_ofRat hdiv, hdiv⟩

/-- **The normalized amount** is what the measure amounts to, if nothing is cut. -/
theorem toRat_normalized (hk : k.family.IsChecked) (hm : m.WellFormed)
    (h : Lossless m.normalizedSteps) : m.normalized.toRat = m.amount :=
  (normalized_exact hk hm h).2.1

/-- The normalized amounts of several measures are what these amount to. -/
theorem map_toRat_normalized (hk : k.family.IsChecked) {ms : List (Measure k)}
    (hms : ∀ m ∈ ms, m.WellFormed) (h : Lossless (ms.flatMap normalizedSteps)) :
    (ms.map fun m => m.normalized.toRat) = ms.map amount :=
  List.map_congr_left fun m hm =>
    toRat_normalized hk (hms m hm) fun q hq => h q (List.mem_flatMap.mpr ⟨m, hm, hq⟩)

/-- Measures that amount to the same are normalized to the same. -/
theorem normalized_congr (hk : k.family.IsChecked) (hm : m.WellFormed) (hn : n.WellFormed)
    (hdef : m.isDefined = n.isDefined) (hamount : m.amount = n.amount)
    (h : Lossless (m.normalizedSteps ++ n.normalizedSteps)) : m.normalized = n.normalized := by
  obtain ⟨hms, hns⟩ := lossless_append.mp h
  obtain ⟨hmc, hmr, -⟩ := normalized_exact hk hm hms
  obtain ⟨hnc, hnr, -⟩ := normalized_exact hk hn hns
  refine hmc.ext hnc ?_ (by rw [hmr, hnr, hamount])
  rw [isDefined_normalized hk hm, isDefined_normalized hk hn, hdef]

/-! ## Conversion and simplification -/

/-- The exact results of the steps of `converted`. -/
def convertedSteps (m : Measure k) (index : ℕ) (simplify : Bool) : List ℚ :=
  match k.family.sets[index]? with
  | none => []
  | some set =>
    if !m.isDefined || m.set = some index then []
    else m.normalizedSteps ++ set.convertSteps m.normalized m.level simplify

/-- Bringing a measure into a set keeps it well-formed, whether there is such a set or not. -/
theorem WellFormed.converted (hm : m.WellFormed) (index : ℕ) (simplify : Bool) :
    (m.converted index simplify).WellFormed := by
  unfold Measure.converted
  split
  · exact hm
  · rename_i set hset
    split
    · exact hm
    · exact .inSet hset (set.length_convert _ _ _)

theorem isDefined_converted (m : Measure k) (index : ℕ) (simplify : Bool) :
    (m.converted index simplify).isDefined = m.isDefined := by
  unfold converted
  split
  · rfl
  · split
    · rfl
    · rename_i h
      have hdef : m.isDefined = true := by simp_all
      rw [hdef]
      rfl

/-- A defined measure that is converted is in the set asked for. -/
theorem set_converted (hdef : m.isDefined) {index : ℕ} (hindex : index < k.family.sets.length)
    (simplify : Bool) : (m.converted index simplify).set = some index := by
  unfold converted
  rw [List.getElem?_eq_getElem hindex]
  simp only [hdef, Bool.not_true, Bool.false_or, decide_eq_true_eq]
  split
  · assumption
  · rfl

/-- **Conversion keeps the amount.** -/
theorem amount_converted (hk : k.family.IsChecked) (hm : m.WellFormed) {index : ℕ}
    {simplify : Bool} (h : Lossless (m.convertedSteps index simplify)) :
    (m.converted index simplify).amount = m.amount := by
  unfold converted
  unfold convertedSteps at h
  split
  · rfl
  · rename_i set hset
    split
    · rfl
    · -- into the set from the common scale and back to it: the ratio of the set cancels
      rename_i hother
      rw [hset] at h
      simp only [if_neg hother] at h
      obtain ⟨hnormalized, hconvert⟩ := lossless_append.mp h
      have hs : set.IsChecked := hk set (List.mem_of_getElem? hset)
      have hmul : (set.multiplier : ℚ) ≠ 0 := by exact_mod_cast hs.multiplier_pos.ne'
      have hdiv : (set.divisor : ℚ) ≠ 0 := by exact_mod_cast hs.divisor_pos.ne'
      rw [amount_inSet hset, UnitSet.exactTotal_convert hs hconvert,
        toRat_normalized hk hm hnormalized]
      field_simp

/-- The exact results of the steps of `simplify`. -/
def simplifySteps (m : Measure k) : List ℚ :=
  match m.activeSet with
  | some set =>
    set.asBaseSteps m.slots ++ UnitSet.spreadSteps m.level set.units (set.asBase m.slots)
  | none => []

theorem WellFormed.simplify (hm : m.WellFormed) : m.simplify.WellFormed := by
  cases hm with
  | undefined => exact .undefined _
  | inSet hset =>
    rw [Measure.simplify, activeSet_inSet hset]
    exact .inSet hset (UnitSet.length_spread _ _ _)

theorem isDefined_simplify (m : Measure k) : m.simplify.isDefined = m.isDefined := by
  unfold simplify
  split <;> rfl

/-- **Simplification keeps the amount.** -/
theorem amount_simplify (hk : k.family.IsChecked) (hm : m.WellFormed)
    (h : Lossless m.simplifySteps) : m.simplify.amount = m.amount := by
  cases hm with
  | undefined => rfl
  | inSet hset =>
    have hs := hk _ (List.mem_of_getElem? hset)
    rw [simplifySteps, activeSet_inSet hset] at h
    obtain ⟨hbase, hspread⟩ := lossless_append.mp h
    rw [simplify, activeSet_inSet hset, amount_inSet hset, amount_inSet hset, UnitSet.distribute,
      UnitSet.exactTotal_spread hs.units_ne_nil hs.units_pos hspread,
      UnitSet.toRat_asBase hs hbase]

/-! ## Functions of all slots -/

theorem WellFormed.mapSlots (hm : m.WellFormed) (f : Rational → Rational) :
    (m.mapSlots f).WellFormed := by
  cases hm with
  | undefined => exact .undefined _
  | inSet hset hslots => exact .inSet hset (by rw [List.length_map, hslots])

/-- A function that multiplies every amount given multiplies the whole. -/
theorem amount_mapSlots (hm : m.WellFormed) {f : Rational → Rational} {factor : ℚ}
    (h : ∀ amount, some amount ∈ m.slots → (f amount).toRat = amount.toRat * factor) :
    (m.mapSlots f).amount = m.amount * factor := by
  cases hm with
  | undefined => exact (zero_mul factor).symm
  | inSet hset =>
    rw [mapSlots, amount_inSet hset, amount_inSet hset, exactTotal_map h]
    ring

/-- If no product is cut, every slot can be stored when it is scaled. -/
theorem storable_of_lossless {slots : Slots} {factor : ℚ} (h : Lossless (slots.scaledSteps factor))
    {amount : Rational} (ha : some amount ∈ slots) : Storable (amount.toRat * factor) :=
  h _ (List.mem_filterMap.mpr ⟨some amount, ha, rfl⟩)

/-- Negated slots amount to the opposite. -/
theorem amount_negate (hm : m.WellFormed) (h : Lossless (m.slots.scaledSteps (-1))) :
    (m.mapSlots Rational.negate).amount = -m.amount := by
  rw [amount_mapSlots hm, mul_neg_one]
  intro amount ha
  have hstorable := storable_of_lossless h ha
  rw [mul_neg_one] at hstorable ⊢
  exact toRat_negate hstorable

/-! ## Sums and differences -/

/-- The exact results of the steps of `add`. -/
def addSteps (m n : Measure k) : List ℚ :=
  match m.set with
  | none => []
  | some index =>
    if n.isDefined then
      n.convertedSteps index true ++ m.slots.sumSteps (n.converted index true).slots
    else []

/-- The exact results of the steps of `subtract`. -/
def subtractSteps (m n : Measure k) : List ℚ :=
  match m.set with
  | none => n.slots.scaledSteps (-1)
  | some index =>
    if n.isDefined then
      let other := n.converted index true
      n.convertedSteps index true ++ other.slots.scaledSteps (-1) ++
        m.slots.sumSteps (other.mapSlots Rational.negate).slots
    else []

section SlotSums

variable {index : ℕ} {slots : Slots} {level : ℤ}

/-- Inversion of **WellFormed** for a measure in a set. -/
theorem WellFormed.exists_set (hm : m.WellFormed) (hset : m.set = some index) :
    ∃ set, k.family.sets[index]? = some set ∧ m.slots.length = set.units.length ∧
      m.amount = exactTotal set.units m.slots * set.divisor / set.multiplier := by
  cases hm with
  | undefined => cases hset
  | inSet hget hslots =>
    cases hset
    exact ⟨_, hget, hslots, amount_inSet hget⟩

/-- A well-formed measure is in a set that there is. -/
theorem WellFormed.index_lt (hm : WellFormed (⟨some index, slots, level⟩ : Measure k)) :
    index < k.family.sets.length := by
  obtain ⟨set, hget, -⟩ := hm.exists_set rfl
  exact (List.getElem?_eq_some_iff.mp hget).1

/-- Slots of one set are added slot by slot, and stay slots of the set. -/
theorem WellFormed.zipWith_addSlot (hm : WellFormed (⟨some index, slots, level⟩ : Measure k))
    (hn : n.WellFormed) (hset : n.set = some index) :
    WellFormed (⟨some index, List.zipWith addSlot slots n.slots, level⟩ : Measure k) := by
  obtain ⟨set, hget, hslots, -⟩ := hm.exists_set rfl
  obtain ⟨set', hget', hslots', -⟩ := hn.exists_set hset
  obtain rfl := Option.some.inj (hget.symm.trans hget')
  exact .inSet hget (by rw [List.length_zipWith, hslots, hslots', min_self])

/-- Slots of one set that are added one by one amount to the sum. -/
theorem amount_zipWith_addSlot (hm : WellFormed (⟨some index, slots, level⟩ : Measure k))
    (hn : n.WellFormed) (hset : n.set = some index) (h : Lossless (slots.sumSteps n.slots)) :
    (⟨some index, List.zipWith addSlot slots n.slots, level⟩ : Measure k).amount =
      (⟨some index, slots, level⟩ : Measure k).amount + n.amount := by
  obtain ⟨set, hget, hslots, hamount⟩ := hm.exists_set rfl
  obtain ⟨set', hget', hslots', hamount'⟩ := hn.exists_set hset
  obtain rfl := Option.some.inj (hget.symm.trans hget')
  rw [hamount, hamount', amount_inSet hget,
    exactTotal_zipWith_addSlot (hslots.trans hslots'.symm) h]
  ring

end SlotSums

/-- An undefined measure adds nothing to the other one. -/
theorem add_of_undefined (h : m.isDefined = false) (n : Measure k) : m.add n = n := by
  obtain ⟨_ | index, slots, level⟩ := m
  · rfl
  · cases h

theorem add_undefined (hm : m.isDefined) (hn : n.isDefined = false) : m.add n = m := by
  obtain ⟨_ | index, slots, level⟩ := m
  · cases hm
  · simp only [add, hn, Bool.false_eq_true, if_false]

/-- A sum is undefined only if both operands are. -/
theorem isDefined_add (m n : Measure k) : (m.add n).isDefined = (m.isDefined || n.isDefined) := by
  cases hm : m.isDefined with
  | false => rw [add_of_undefined hm, Bool.false_or]
  | true =>
    cases hn : n.isDefined with
    | false => rw [add_undefined hm hn, hm, Bool.true_or]
    | true =>
      obtain ⟨_ | index, slots, level⟩ := m
      · cases hm
      · simp only [add, hn, if_true]
        rfl

theorem WellFormed.add (hm : m.WellFormed) (hn : n.WellFormed) : (m.add n).WellFormed := by
  obtain ⟨_ | index, slots, level⟩ := m
  · exact hn
  · cases hdef : n.isDefined with
    | false => rwa [add_undefined rfl hdef]
    | true =>
      simp only [Measure.add, hdef, if_true]
      exact hm.zipWith_addSlot (hn.converted index true) (set_converted hdef hm.index_lt true)

/-- **Amounts add up**, whatever the sets. -/
theorem amount_add (hk : k.family.IsChecked) (hm : m.WellFormed) (hn : n.WellFormed)
    (h : Lossless (m.addSteps n)) : (m.add n).amount = m.amount + n.amount := by
  obtain ⟨_ | index, slots, level⟩ := m
  · -- nothing was given before: the sum is the other measure
    exact (zero_add _).symm
  · cases hdef : n.isDefined with
    | false => rw [add_undefined rfl hdef, amount_of_undefined hdef, add_zero]
    | true =>
      -- the other measure comes into this set first, which keeps its amount
      simp only [addSteps, hdef, if_true] at h
      obtain ⟨hconverted, hsum⟩ := lossless_append.mp h
      simp only [Measure.add, hdef, if_true]
      rw [amount_zipWith_addSlot hm (hn.converted index true)
        (set_converted hdef hm.index_lt true) hsum, amount_converted hk hn hconverted]

/-- A difference is a sum with the negated amount, in the set of the first measure. -/
theorem amount_subtract (hk : k.family.IsChecked) (hm : m.WellFormed) (hn : n.WellFormed)
    (h : Lossless (m.subtractSteps n)) : (m.subtract n).amount = m.amount - n.amount := by
  obtain ⟨_ | index, slots, level⟩ := m
  · have hzero : (⟨none, slots, level⟩ : Measure k).amount = 0 := rfl
    rw [subtract, amount_negate hn h, hzero, zero_sub]
  · cases hdef : n.isDefined with
    | false =>
      simp only [subtract, hdef, Bool.false_eq_true, if_false]
      rw [amount_of_undefined hdef, sub_zero]
    | true =>
      simp only [subtractSteps, hdef, if_true] at h
      obtain ⟨h, hsum⟩ := lossless_append.mp h
      obtain ⟨hconverted, hnegate⟩ := lossless_append.mp h
      have hother := hn.converted index true
      simp only [subtract, hdef, if_true]
      rw [amount_zipWith_addSlot hm (hother.mapSlots _)
        (set_converted hdef hm.index_lt true) hsum, amount_negate hother hnegate,
        amount_converted hk hn hconverted, sub_eq_add_neg]

theorem WellFormed.subtract (hm : m.WellFormed) (hn : n.WellFormed) :
    (m.subtract n).WellFormed := by
  obtain ⟨_ | index, slots, level⟩ := m
  · exact hn.mapSlots _
  · cases hdef : n.isDefined with
    | false =>
      simp only [Measure.subtract, hdef, Bool.false_eq_true, if_false]
      exact hm
    | true =>
      simp only [Measure.subtract, hdef, if_true]
      exact hm.zipWith_addSlot ((hn.converted index true).mapSlots _)
        (set_converted hdef hm.index_lt true)

theorem isDefined_subtract (m n : Measure k) :
    (m.subtract n).isDefined = (m.isDefined || n.isDefined) := by
  obtain ⟨_ | index, slots, level⟩ := m
  · rfl
  · unfold subtract
    simp only
    split <;> rfl

/-! ## Products and quotients -/

/-- The exact results of the steps of `multiply`. -/
def multiplySteps (m : Measure k) (factor : Rational) : List ℚ :=
  m.slots.scaledSteps factor.toRat ++ (m.mapSlots (·.multiply factor)).simplifySteps

/-- The exact results of the steps of `divide`. -/
def divideSteps (m : Measure k) (divisor : Rational) : List ℚ :=
  match Rational.one.divide divisor with
  | .ok inverse => divisor.toRat⁻¹ :: m.multiplySteps inverse
  | .error _ => []

theorem WellFormed.multiply (hm : m.WellFormed) (factor : Rational) :
    (m.multiply factor).WellFormed := (hm.mapSlots _).simplify

theorem isDefined_multiply (m : Measure k) (factor : Rational) :
    (m.multiply factor).isDefined = m.isDefined := isDefined_simplify _

/-- **Multiplication multiplies the amount.** -/
theorem amount_multiply (hk : k.family.IsChecked) (hm : m.WellFormed) {factor : Rational}
    (hfactor : factor.isDefined) (h : Lossless (m.multiplySteps factor)) :
    (m.multiply factor).amount = m.amount * factor.toRat := by
  obtain ⟨hscaled, hsimplify⟩ := lossless_append.mp h
  rw [multiply, amount_simplify hk (hm.mapSlots _) hsimplify, amount_mapSlots hm]
  intro amount ha
  exact toRat_multiply hfactor (storable_of_lossless hscaled ha)

/-- The inverse of a divisor is what is stored for the inverse number. -/
theorem one_divide {divisor : Rational} (hdivisor : divisor.isDefined)
    (hnull : divisor.isNull = false) :
    Rational.one.divide divisor = .ok (ofRat divisor.toRat⁻¹) := by
  have hone : Rational.one.toRat = 1 := rfl
  rw [divide_eq_ofRat rfl hdivisor hnull, hone, one_div]

/-- **Division divides the amount.** -/
theorem divide_eq_ok (hk : k.family.IsChecked) (hm : m.WellFormed) {divisor : Rational}
    (hdivisor : divisor.isDefined) (hnull : divisor.isNull = false) :
    ∃ c, m.divide divisor = .ok c ∧ c.WellFormed ∧ c.isDefined = m.isDefined ∧
      (Lossless (m.divideSteps divisor) → c.amount = m.amount / divisor.toRat) := by
  have hinverse := one_divide hdivisor hnull
  refine ⟨m.multiply (ofRat divisor.toRat⁻¹), ?_, hm.multiply _, isDefined_multiply _ _, ?_⟩
  · simp only [divide, hinverse]
  · intro h
    simp only [divideSteps, hinverse] at h
    obtain ⟨hstorable, hmultiply⟩ := lossless_cons.mp h
    rw [amount_multiply hk hm (isDefined_ofRat _) hmultiply, toRat_ofRat hstorable,
      div_eq_mul_inv]

/-! ## Normalized values -/

/-- **The normalized amount of a sum** is the sum of the normalized amounts. -/
theorem normalized_add (hk : k.family.IsChecked) (hm : m.WellFormed) (hn : n.WellFormed)
    (h : Lossless (m.normalizedSteps ++ n.normalizedSteps ++ m.addSteps n ++
      (m.add n).normalizedSteps)) :
    (m.add n).normalized = m.normalized.add n.normalized := by
  simp only [lossless_append] at h
  obtain ⟨⟨⟨hms, hns⟩, hadd⟩, hsum⟩ := h
  obtain ⟨hmc, hmr, -⟩ := normalized_exact hk hm hms
  obtain ⟨hnc, hnr, -⟩ := normalized_exact hk hn hns
  obtain ⟨hc, hr, hstorable⟩ := normalized_exact hk (hm.add hn) hsum
  rw [amount_add hk hm hn hadd, ← hmr, ← hnr] at hr hstorable
  refine hc.ext (hmc.add hnc hstorable) ?_ (by rw [hr, toRat_add hstorable])
  rw [isDefined_normalized hk (hm.add hn), Rational.isDefined_add, isDefined_normalized hk hm,
    isDefined_normalized hk hn, isDefined_add]

/-- **The normalized amount of a difference** is the difference of the normalized amounts. -/
theorem normalized_subtract (hk : k.family.IsChecked) (hm : m.WellFormed) (hn : n.WellFormed)
    (h : Lossless (m.normalizedSteps ++ n.normalizedSteps ++ m.subtractSteps n ++
      (m.subtract n).normalizedSteps)) :
    (m.subtract n).normalized = m.normalized.subtract n.normalized := by
  simp only [lossless_append] at h
  obtain ⟨⟨⟨hms, hns⟩, hsub⟩, hdiff⟩ := h
  obtain ⟨hmc, hmr, -⟩ := normalized_exact hk hm hms
  obtain ⟨hnc, hnr, hns'⟩ := normalized_exact hk hn hns
  obtain ⟨hc, hr, hstorable⟩ := normalized_exact hk (hm.subtract hn) hdiff
  have hneg : Storable (-n.normalized.toRat) := by rwa [storable_neg, hnr]
  rw [amount_subtract hk hm hn hsub, sub_eq_add_neg, ← hmr, ← hnr, ← toRat_negate hneg]
    at hr hstorable
  rw [Rational.subtract]
  refine hc.ext (hmc.add (hnc.negate hneg) hstorable) ?_ ?_
  · rw [isDefined_normalized hk (hm.subtract hn), Rational.isDefined_add, isDefined_negate,
      isDefined_normalized hk hm, isDefined_normalized hk hn, isDefined_subtract]
  · rw [hr, toRat_add hstorable]

/-- **The normalized amount of a product** is the normalized amount times the factor. -/
theorem normalized_multiply (hk : k.family.IsChecked) (hm : m.WellFormed) {factor : Rational}
    (hfactor : factor.isDefined)
    (h : Lossless (m.normalizedSteps ++ m.multiplySteps factor ++
      (m.multiply factor).normalizedSteps)) :
    (m.multiply factor).normalized = m.normalized.multiply factor := by
  simp only [lossless_append] at h
  obtain ⟨⟨hms, hmultiply⟩, hproduct⟩ := h
  obtain ⟨-, hmr, -⟩ := normalized_exact hk hm hms
  obtain ⟨hc, hr, hstorable⟩ := normalized_exact hk (hm.multiply factor) hproduct
  rw [amount_multiply hk hm hfactor hmultiply, ← hmr] at hr hstorable
  refine hc.ext (canonical_multiply hstorable) ?_ (by rw [hr, toRat_multiply hfactor hstorable])
  rw [isDefined_normalized hk (hm.multiply factor), Rational.isDefined_multiply, hfactor,
    isDefined_normalized hk hm, isDefined_multiply, Bool.and_true]

/-- **The normalized amount of a quotient** is the normalized amount over the divisor, and by
anything but zero a measure can be divided. -/
theorem normalized_divide (hk : k.family.IsChecked) (hm : m.WellFormed) {divisor : Rational}
    (hdivisor : divisor.isDefined) (hnull : divisor.isNull = false) :
    ∃ c q, m.divide divisor = .ok c ∧ m.normalized.divide divisor = .ok q ∧
      (Lossless (m.normalizedSteps ++ m.divideSteps divisor ++ c.normalizedSteps) →
        c.normalized = q) := by
  obtain ⟨c, hdivide, hcm, hcdef, hamount⟩ := divide_eq_ok hk hm hdivisor hnull
  obtain ⟨q, hq, hqdef, hexact⟩ := m.normalized.divide_eq_ok hdivisor hnull
  refine ⟨c, q, hdivide, hq, fun h => ?_⟩
  simp only [lossless_append] at h
  obtain ⟨⟨hms, hsteps⟩, hquotient⟩ := h
  obtain ⟨hc, hr, hstorable⟩ := normalized_exact hk hcm hquotient
  rw [hamount hsteps, ← toRat_normalized hk hm hms] at hr hstorable
  obtain ⟨hqc, hqr⟩ := hexact hstorable
  refine hc.ext hqc ?_ (hr.trans hqr.symm)
  rw [isDefined_normalized hk hcm, hcdef, hqdef, isDefined_normalized hk hm]

/-- **Conversion and arithmetic are exact** for every family that can be read: what an operation
yields is normalized to what the operation on the normalized values yields, as long as no step on
either side is cut. -/
theorem arithmetic_exact {definition : String} (hk : Family.parse definition = .ok k.family)
    {a b : Measure k} (ha : a.WellFormed) (hb : b.WellFormed) :
    (∀ index simplify, index < k.family.sets.length → ∃ c, a.toSet index simplify = .ok c ∧
      (Lossless (a.normalizedSteps ++ a.convertedSteps index simplify ++ c.normalizedSteps) →
        c.normalized = a.normalized)) ∧
    (Lossless (a.normalizedSteps ++ a.simplifySteps ++ a.simplify.normalizedSteps) →
      a.simplify.normalized = a.normalized) ∧
    (∀ level, (a.withLevel level).normalized = a.normalized) ∧
    (Lossless (a.normalizedSteps ++ b.normalizedSteps ++ a.addSteps b ++
        (a.add b).normalizedSteps) →
      (a.add b).normalized = a.normalized.add b.normalized) ∧
    (Lossless (a.normalizedSteps ++ b.normalizedSteps ++ a.subtractSteps b ++
        (a.subtract b).normalizedSteps) →
      (a.subtract b).normalized = a.normalized.subtract b.normalized) ∧
    (∀ q : Rational, q.isDefined →
      Lossless (a.normalizedSteps ++ a.multiplySteps q ++ (a.multiply q).normalizedSteps) →
      (a.multiply q).normalized = a.normalized.multiply q) ∧
    ∀ q : Rational, q.isDefined → q.isNull = false →
      ∃ c r, a.divide q = .ok c ∧ a.normalized.divide q = .ok r ∧
        (Lossless (a.normalizedSteps ++ a.divideSteps q ++ c.normalizedSteps) →
          c.normalized = r) := by
  have hchecked := Family.isChecked_of_parse hk
  refine ⟨?_, ?_, fun _ => rfl, normalized_add hchecked ha hb, normalized_subtract hchecked ha hb,
    fun _ hq => normalized_multiply hchecked ha hq, fun _ hq => normalized_divide hchecked ha hq⟩
  · intro index simplify hindex
    refine ⟨a.converted index simplify, by rw [toSet, if_pos hindex], fun h => ?_⟩
    rw [lossless_append, lossless_append] at h
    obtain ⟨⟨hnormalized, hconverted⟩, hresult⟩ := h
    exact normalized_congr hchecked (ha.converted index simplify) ha
      (isDefined_converted a index simplify) (amount_converted hchecked ha hconverted)
      (lossless_append.mpr ⟨hresult, hnormalized⟩)
  · intro h
    rw [lossless_append, lossless_append] at h
    obtain ⟨⟨hnormalized, hsimplify⟩, hresult⟩ := h
    exact normalized_congr hchecked ha.simplify ha (isDefined_simplify a)
      (amount_simplify hchecked ha hsimplify) (lossless_append.mpr ⟨hresult, hnormalized⟩)

/-- A mile and 2480 feet. -/
def mileAndFeet : Measure (.standard .distance) :=
  ⟨some 0, [some (.ofInt 1), some (.ofInt 2480), none], 20⟩

/-- A third of a centimeter less than a negative kilometer. -/
def negativeMetric : Measure (.standard .distance) :=
  ⟨some 1, [some (.ofInt (-1)), none, some (.signed 0 (-1) 3)], 20⟩

/-- A mile and some feet, and a negative distance in meters. -/
theorem arithmetic_exact_distance :
    (∃ c, mileAndFeet.toSet 1 true = .ok c ∧ c.normalized = mileAndFeet.normalized) ∧
      mileAndFeet.simplify.normalized = mileAndFeet.normalized ∧
      (mileAndFeet.add negativeMetric).normalized =
        mileAndFeet.normalized.add negativeMetric.normalized ∧
      (mileAndFeet.subtract negativeMetric).normalized =
        mileAndFeet.normalized.subtract negativeMetric.normalized ∧
      (mileAndFeet.multiply (.signed 0 2 3)).normalized =
        mileAndFeet.normalized.multiply (.signed 0 2 3) ∧
      ∃ c r, mileAndFeet.divide (.signed 0 2 3) = .ok c ∧
        mileAndFeet.normalized.divide (.signed 0 2 3) = .ok r ∧ c.normalized = r := by
  obtain ⟨htoSet, hsimplify, -, hadd, hsubtract, hmultiply, hdivide⟩ :=
    arithmetic_exact (Dimension.parse_definition .distance) (a := mileAndFeet)
      (.inSet rfl rfl) (b := negativeMetric) (.inSet rfl rfl)
  refine ⟨?_, hsimplify (by decide +kernel), hadd (by decide +kernel),
    hsubtract (by decide +kernel), hmultiply _ (by decide) (by decide +kernel), ?_⟩
  · obtain ⟨c, hc, h⟩ := htoSet 1 true (by decide)
    refine ⟨c, hc, h ?_⟩
    obtain rfl : mileAndFeet.converted 1 true = c := Except.ok.inj hc
    decide +kernel
  · obtain ⟨c, r, hc, hr, h⟩ := hdivide (.signed 0 2 3) (by decide) (by decide)
    refine ⟨c, r, hc, hr, h ?_⟩
    obtain rfl : mileAndFeet.multiply (.signed 0 3 2) = c := Except.ok.inj hc
    decide +kernel

end Measure

end Tabletop
