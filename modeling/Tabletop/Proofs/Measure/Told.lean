import Tabletop.Measure.Text
import Tabletop.Proofs.Measure.Amount
import Tabletop.Proofs.Rational.Operation

/-!
# What a text tells of a measure

A measure's text is a list of pairs, each an amount and a spelling of its unit. Amounts of zero are
left out, so it does not tell all slots.

* **told** are the slots that a text tells: the amounts other than zero, and zero base units if
  there are none. Their **pairs** make the text (`Measure.toList_text`);
* what is told is told again, and so has the same text (`UnitSet.told_told`, `Measure.text_told`);
* its total is that of the slots (`UnitSet.asBase_told`).
-/

namespace Tabletop

open Text Rational

/-- A total stays the stored form of its number. -/
theorem Rational.eq_ofRat_add {total r : Rational} (h : total = ofRat total.toRat)
    (hsum : Storable (total.toRat + r.toRat)) : total.add r = ofRat (total.add r).toRat := by
  have hdef : total.isDefined = true := by rw [h, isDefined_ofRat]
  cases hr : r.isDefined with
  | false =>
    have hsame : total.add r = total := by simp [Rational.add, hdef, hr]
    rwa [hsame]
  | true => rw [add_eq_ofRat hdef hr, toRat_ofRat hsum]

/-! ## Texts as pairs -/

/-- The spelling behind an amount: the singular for one and for a part of one. -/
def MeasureUnit.spelling (u : MeasureUnit) (amount : Rational) : String :=
  if amount.isSingular && !amount.isNull then u.name else u.plural

/-- A unit is spelled by one of its names. -/
theorem MeasureUnit.spelling_mem_names (u : MeasureUnit) (amount : Rational) :
    u.spelling amount ∈ u.names := by
  unfold spelling names
  split <;> simp

/-- An amount is formatted with the spelling of its unit behind it. -/
theorem MeasureUnit.format_eq (u : MeasureUnit) {amount : Rational} (h : amount.isNull = false) :
    u.format amount = amount.text ++ " " ++ u.spelling amount := by
  rw [format, spelling, h]
  cases amount.isSingular <;> rfl

theorem MeasureUnit.shortest_mem_names (u : MeasureUnit) : u.shortest ∈ u.names := by
  have hbest : ∀ (names : List String) (best : String),
      names.foldl (fun best name => if name.utf8ByteSize < best.utf8ByteSize then name else best)
        best ∈ best :: names := by
    intro names
    induction names with
    | nil => exact fun best => List.mem_cons_self
    | cons name names ih =>
      intro best
      rw [List.foldl_cons]
      split
      · exact List.mem_cons_of_mem best (ih name)
      · rcases List.mem_cons.mp (ih best) with hsame | hlater
        · rw [hsame]
          exact List.mem_cons_self
        · exact List.mem_cons_of_mem best (List.mem_cons_of_mem name hlater)
  exact hbest (u.plural :: u.aliases) u.name

/-- The amounts given and the names behind them, which may depend on the amount. -/
def pairsBy (name : MeasureUnit → Rational → String) (units : List MeasureUnit) (slots : Slots) :
    List (Rational × String) :=
  (units.zip slots).filterMap fun (u, slot) => slot.map fun amount => (amount, name u amount)

/-- The amounts given and the spellings behind them. -/
def pairs (units : List MeasureUnit) (slots : Slots) : List (Rational × String) :=
  (units.zip slots).filterMap fun (u, slot) => slot.map fun amount => (amount, u.spelling amount)

/-- Pairs in text, each with a blank in front. -/
def pairsText (ps : List (Rational × String)) : List Char :=
  ps.flatMap fun p => ' ' :: (p.1.text.toList ++ ' ' :: p.2.toList)

theorem pairsText_cons (p : Rational × String) (ps : List (Rational × String)) :
    pairsText (p :: ps) = ' ' :: (p.1.text.toList ++ ' ' :: (p.2.toList ++ pairsText ps)) := by
  simp [pairsText]

/-- Pairs that are joined with spaces stand one behind the other. -/
theorem toList_intercalate_pairs (p : Rational × String) (ps : List (Rational × String)) :
    ' ' :: (String.intercalate " " ((p :: ps).map fun q => q.1.text ++ " " ++ q.2)).toList =
      pairsText (p :: ps) := by
  have hspace : " ".toList = [' '] := rfl
  induction ps generalizing p with
  | nil => simp [pairsText, hspace]
  | cons q ps ih =>
    have hrest := ih q
    rw [List.map_cons] at hrest
    rw [List.map_cons, List.map_cons, String.intercalate_cons_cons, pairsText_cons, ← hrest]
    simp [hspace]

/-! ## What a text tells -/

/-- The amounts other than zero. -/
def Slots.counted (slots : Slots) : Slots :=
  slots.map fun slot => slot.filter fun amount => !amount.isNull

/-- What counts in slots are the amounts that are not zero. -/
theorem Slots.getElem?_counted {slots : Slots} {j : ℕ} {amount : Rational} :
    slots.counted[j]? = some (some amount) ↔
      slots[j]? = some (some amount) ∧ amount.isNull = false := by
  unfold counted
  rw [List.getElem?_map, Option.map_eq_some_iff]
  constructor
  · rintro ⟨slot, hslot, h⟩
    obtain ⟨rfl, hnull⟩ := Option.filter_eq_some_iff.mp h
    exact ⟨hslot, by simpa using hnull⟩
  · rintro ⟨hslot, hnull⟩
    exact ⟨_, hslot, Option.filter_eq_some_iff.mpr ⟨rfl, by simp [hnull]⟩⟩

theorem Slots.some_mem_counted {slots : Slots} {amount : Rational} :
    some amount ∈ slots.counted ↔ some amount ∈ slots ∧ amount.isNull = false := by
  simp only [List.mem_iff_getElem?, getElem?_counted, exists_and_right]

/-- What counts is told once. -/
theorem Slots.counted_counted (slots : Slots) : slots.counted.counted = slots.counted := by
  unfold counted
  rw [List.map_map]
  exact List.map_congr_left fun slot _ => by simp

variable {units : List MeasureUnit} {slots : Slots} {name : MeasureUnit → Rational → String}

/-- What a unit writes for amounts other than zero is the amount and a name behind it. -/
def Writes (format : MeasureUnit → Rational → String) (name : MeasureUnit → Rational → String) :
    Prop :=
  ∀ u amount, amount.isNull = false → format u amount = amount.text ++ " " ++ name u amount

/-- A text names the amounts that count, and no others. -/
theorem pairsBy_counted {format : MeasureUnit → Rational → String} (h : Writes format name)
    (units : List MeasureUnit) (slots : Slots) :
    (units.zip slots).filterMap
        (fun (u, slot) => (slot.filter fun amount => !amount.isNull).map (format u)) =
      (pairsBy name units slots.counted).map fun p => p.1.text ++ " " ++ p.2 := by
  induction units generalizing slots with
  | nil => rfl
  | cons u us ih =>
    cases slots with
    | nil => rfl
    | cons slot slots =>
      have hrest := ih slots
      cases hslot : slot.filter fun amount => !amount.isNull with
      | none => simpa [pairsBy, Slots.counted, hslot] using hrest
      | some amount =>
        have hnull : amount.isNull = false := by
          simpa using (Option.filter_eq_some_iff.mp hslot).2
        simpa [pairsBy, Slots.counted, hslot, h u amount hnull] using hrest

/-- A pair is of a unit and the amount in its slot. -/
theorem mem_pairsBy_iff {p : Rational × String} :
    p ∈ pairsBy name units slots ↔
      ∃ (j : ℕ) (u : MeasureUnit), units[j]? = some u ∧ slots[j]? = some (some p.1) ∧
        p.2 = name u p.1 := by
  unfold pairsBy
  rw [List.mem_filterMap]
  constructor
  · rintro ⟨⟨u, slot⟩, hmem, h⟩
    obtain ⟨j, hj⟩ := List.mem_iff_getElem?.mp hmem
    obtain ⟨hu, hslot⟩ := List.getElem?_zip_eq_some.mp hj
    obtain ⟨amount, rfl, rfl⟩ := Option.map_eq_some_iff.mp h
    exact ⟨j, u, hu, hslot, rfl⟩
  · rintro ⟨j, u, hu, hslot, hname⟩
    refine ⟨(u, some p.1), List.mem_of_getElem? (List.getElem?_zip_eq_some.mpr ⟨hu, hslot⟩), ?_⟩
    exact congrArg some (Prod.ext rfl hname.symm)

/-- The pairs of slots are their amounts with the spellings of their units. -/
theorem mem_pairs_iff {p : Rational × String} :
    p ∈ pairs units slots ↔
      ∃ (j : ℕ) (u : MeasureUnit), units[j]? = some u ∧ slots[j]? = some (some p.1) ∧
        p.2 = u.spelling p.1 :=
  mem_pairsBy_iff

/-- A slot that is filled makes a pair. -/
theorem pairsBy_eq_nil_iff (h : slots.length = units.length) :
    pairsBy name units slots = [] ↔ ∀ slot ∈ slots, slot = none := by
  induction units generalizing slots with
  | nil =>
    obtain rfl := List.length_eq_zero_iff.mp h
    exact iff_of_true rfl (by rintro slot ⟨⟩)
  | cons u us ih =>
    cases slots with
    | nil => cases h
    | cons slot slots =>
      have hrest := @ih slots (by simpa using h)
      cases slot with
      | none => simpa [pairsBy] using hrest
      | some amount => simp [pairsBy]

/-- Only empty slots have no pairs. -/
theorem pairs_eq_nil_iff (h : slots.length = units.length) :
    pairs units slots = [] ↔ ∀ slot ∈ slots, slot = none :=
  pairsBy_eq_nil_iff h

/-- What fills the slot of the base unit makes the only pair. -/
theorem pairs_set_base (h : ∃ u ∈ units, u.isBase = true) :
    pairs units
        ((units.map fun _ => none).set (units.findIdx MeasureUnit.isBase) (some .zero)) =
      [(.zero, ((units.find? MeasureUnit.isBase).map (·.plural)).getD "")] := by
  have hempty (us : List MeasureUnit) : pairs us (us.map fun _ => none) = [] :=
    (pairs_eq_nil_iff (List.length_map _)).mpr (by simp)
  induction units with
  | nil =>
    obtain ⟨u, hu, -⟩ := h
    cases hu
  | cons u us ih =>
    rw [List.findIdx_cons, List.find?_cons, List.map_cons]
    cases hbase : u.isBase with
    | true =>
      change (Rational.zero, u.plural) :: pairs us (us.map fun _ => none) = _
      rw [hempty]
      rfl
    | false =>
      obtain ⟨v, hv, hv'⟩ := h
      rcases List.mem_cons.mp hv with rfl | hv
      · rw [hv'] at hbase
        cases hbase
      · exact ih ⟨v, hv, hv'⟩

namespace UnitSet

variable {s : UnitSet} {slots : Slots}

/-- What a text tells of some slots: the amounts other than zero, or no base units at all. -/
def told (s : UnitSet) (slots : Slots) : Slots :=
  if ∀ slot ∈ slots.counted, slot = none then
    (s.units.map fun _ => none).set s.baseIndex (some .zero)
  else slots.counted

theorem length_told (h : slots.length = s.units.length) :
    (s.told slots).length = s.units.length := by
  unfold told
  split
  · simp
  · rw [Slots.counted, List.length_map, h]

/-- Where an amount other than zero is given, just such amounts are told. -/
theorem told_eq_counted {j : ℕ} {amount : Rational} (h : slots[j]? = some (some amount))
    (hnull : amount.isNull = false) : s.told slots = slots.counted := by
  rw [told, if_neg]
  intro hnone
  have hslot := hnone _ (List.mem_of_getElem? (Slots.getElem?_counted.mpr ⟨h, hnull⟩))
  cases hslot

/-- An amount that is told is given, or is zero. -/
theorem some_mem_told {amount : Rational} (h : some amount ∈ s.told slots) :
    some amount ∈ slots ∨ amount = .zero := by
  unfold told at h
  split at h
  · rcases List.mem_or_eq_of_mem_set h with hmem | heq
    · simp at hmem
    · exact .inr (Option.some.inj heq)
  · exact .inl (Slots.some_mem_counted.mp h).1

/-- A text always tells something. -/
theorem pairs_told_ne_nil (hs : s.IsChecked) (hslots : slots.length = s.units.length) :
    pairs s.units (s.told slots) ≠ [] := by
  unfold told
  split
  · rw [baseIndex, pairs_set_base hs.exists_base]
    exact List.cons_ne_nil _ _
  · rename_i hsome
    exact mt (pairs_eq_nil_iff (by rw [Slots.counted, List.length_map, hslots])).mp hsome

/-- What is told is told again. -/
theorem told_told (s : UnitSet) (slots : Slots) : s.told (s.told slots) = s.told slots := by
  by_cases h : ∀ slot ∈ slots.counted, slot = none
  · have hempty : ∀ slot ∈ (s.told slots).counted, slot = none := by
      intro slot hslot
      cases slot with
      | none => rfl
      | some amount =>
        obtain ⟨hmem, hnull⟩ := Slots.some_mem_counted.mp hslot
        rcases some_mem_told hmem with hgiven | rfl
        · exact h _ (Slots.some_mem_counted.mpr ⟨hgiven, hnull⟩)
        · cases hnull
    rw [told, if_pos hempty, told, if_pos h]
  · rw [told, told, if_neg h, Slots.counted_counted, if_neg h]

/-! ## The total of what is told -/

/-- Zero of a unit is zero. -/
theorem asBase_of_isNull {u : MeasureUnit} (hu : u.divisor ≠ 0) {amount : Rational}
    (h : amount.isNull = true) : u.asBase amount = .zero := by
  have hdef : amount.isDefined = true := by
    simp only [isNull, Bool.and_eq_true] at h
    exact h.1.1
  have hzero : amount.toRat * u.multiplier = 0 := by rw [(isNull_iff hdef).mp h, zero_mul]
  rw [MeasureUnit.asBase, scaleBy_eq_ofRat hdef _ hu (hzero ▸ storable_zero), hzero, zero_div]
  rfl

/-- Amounts of zero add nothing to a total. -/
theorem foldl_asBase_counted {units : List MeasureUnit} (hdiv : ∀ u ∈ units, u.divisor ≠ 0) :
    ∀ {slots : Slots} {total : Rational}, total = ofRat total.toRat →
      Lossless (totalSteps total units slots) →
      ((units.zip slots.counted).filterMap fun (u, slot) => slot.map u.asBase).foldl Rational.add
        total =
      ((units.zip slots).filterMap fun (u, slot) => slot.map u.asBase).foldl Rational.add
        total := by
  induction units with
  | nil => exact fun _ _ => rfl
  | cons u us ih =>
    intro slots total htotal h
    have hu : u.divisor ≠ 0 := hdiv u List.mem_cons_self
    have hus : ∀ v ∈ us, v.divisor ≠ 0 := fun v hv => hdiv v (List.mem_cons_of_mem u hv)
    cases slots with
    | nil => rfl
    | cons slot slots =>
      cases slot with
      | none => exact ih hus htotal h
      | some amount =>
        rw [totalSteps, lossless_append, lossless_cons] at h
        obtain ⟨-, hadd, hrest⟩ := h
        cases hnull : amount.isNull with
        | true =>
          have hzero := asBase_of_isNull hu hnull
          have hsame : total.add .zero = total := by
            have hdef : total.isDefined = true := by rw [htotal, isDefined_ofRat]
            rw [add_eq_ofRat hdef rfl, toRat_zero, add_zero, ← htotal]
          rw [hzero, hsame] at hrest
          simpa [Slots.counted, hnull, hzero, hsame] using ih hus htotal hrest
        | false =>
          simpa [Slots.counted, hnull] using ih hus (eq_ofRat_add htotal hadd) hrest

/-- Slots of zeros amount to zero. -/
theorem asBase_of_null {s : UnitSet} (hdiv : ∀ u ∈ s.units, u.divisor ≠ 0) {slots : Slots}
    (h : ∀ amount, some amount ∈ slots → amount.isNull = true) : s.asBase slots = .zero := by
  have hzero : ∀ total ∈ (s.units.zip slots).filterMap fun (u, slot) => slot.map u.asBase,
      total = .zero := by
    intro total htotal
    obtain ⟨⟨u, slot⟩, hmem, htotal⟩ := List.mem_filterMap.mp htotal
    obtain ⟨hu, hslot⟩ := List.of_mem_zip hmem
    obtain ⟨amount, rfl, rfl⟩ := Option.map_eq_some_iff.mp htotal
    exact asBase_of_isNull (hdiv u hu) (h amount hslot)
  rw [asBase, List.eq_replicate_of_mem hzero]
  generalize List.length _ = n
  induction n with
  | zero => rfl
  | succ n ih => exact ih

/-- Where only zeros are given, zero is told. -/
theorem asBase_told_of_null {s : UnitSet} (hs : s.IsChecked) {slots : Slots}
    (hnone : ∀ slot ∈ slots.counted, slot = none) :
    s.asBase (s.told slots) = s.asBase slots := by
  have hdiv : ∀ u ∈ s.units, u.divisor ≠ 0 := fun u hu => (hs.units_pos u hu).2.ne'
  have hnull : ∀ amount, some amount ∈ slots → amount.isNull = true := by
    intro amount hmem
    by_contra hnull
    have hcounted := hnone _ (Slots.some_mem_counted.mpr ⟨hmem, Bool.not_eq_true _ ▸ hnull⟩)
    cases hcounted
  rw [told, if_pos hnone, asBase_of_null hdiv hnull, asBase_of_null hdiv]
  intro amount hmem
  rcases List.mem_or_eq_of_mem_set hmem with hmem | heq
  · simp at hmem
  · cases heq
    rfl

/-- **The total of what is told** is the total. -/
theorem asBase_told {s : UnitSet} (hs : s.IsChecked) {slots : Slots}
    (h : Lossless (s.asBaseSteps slots)) : s.asBase (s.told slots) = s.asBase slots := by
  by_cases hnone : ∀ slot ∈ slots.counted, slot = none
  · exact asBase_told_of_null hs hnone
  · rw [told, if_neg hnone]
    exact foldl_asBase_counted (fun u hu => (hs.units_pos u hu).2.ne') rfl h

end UnitSet

/-! ## The text of what is told -/

namespace Measure

variable {k : Kind} {index : ℕ} {s : UnitSet} {slots : Slots}

/-- Zero in all is written in base units. -/
theorem render_of_null (format : MeasureUnit → Rational → String)
    (hset : k.family.sets[index]? = some s)
    (hnone : ∀ slot ∈ slots.counted, slot = none) (level : ℤ) :
    render format (⟨some index, slots, level⟩ : Measure k) = "0 " ++ s.basePlural := by
  have hactive : (⟨some index, slots, level⟩ : Measure k).activeSet = some s := hset
  have hparts : (s.units.zip slots).filterMap
      (fun (u, slot) => (slot.filter fun amount => !amount.isNull).map (format u)) = [] := by
    refine List.filterMap_eq_nil_iff.mpr fun ⟨u, slot⟩ hmem => ?_
    have hslot := hnone _ (List.mem_map_of_mem (List.of_mem_zip hmem).2)
    simp only [hslot, Option.map_none]
  unfold render
  rw [hactive]
  simp only [hparts, if_true]

/-- Amounts other than zero are written with the names behind them. -/
theorem toList_render {format name : MeasureUnit → Rational → String} (hformat : Writes format name)
    (hset : k.family.sets[index]? = some s) (hslots : slots.length = s.units.length)
    (hsome : ¬ ∀ slot ∈ slots.counted, slot = none) (level : ℤ) :
    ' ' :: (render format (⟨some index, slots, level⟩ : Measure k)).toList =
      pairsText (pairsBy name s.units slots.counted) := by
  have hactive : (⟨some index, slots, level⟩ : Measure k).activeSet = some s := hset
  have hcounted : slots.counted.length = s.units.length := by
    rw [Slots.counted, List.length_map, hslots]
  have hne : pairsBy name s.units slots.counted ≠ [] := mt (pairsBy_eq_nil_iff hcounted).mp hsome
  obtain ⟨p, ps, hps⟩ := List.exists_cons_of_ne_nil hne
  unfold render
  rw [hactive]
  simp only [pairsBy_counted hformat, hps, List.map_eq_nil_iff, reduceCtorEq, if_false]
  exact toList_intercalate_pairs p ps

/-- **The text of a measure** is made of the pairs of what it tells. -/
theorem toList_text (hset : k.family.sets[index]? = some s) (hs : s.IsChecked)
    (hslots : slots.length = s.units.length) (level : ℤ) :
    ' ' :: (⟨some index, slots, level⟩ : Measure k).text.toList =
      pairsText (pairs s.units (s.told slots)) := by
  have hzero : Rational.zero.text.toList = ['0'] := by decide +kernel
  by_cases hnone : ∀ slot ∈ slots.counted, slot = none
  · rw [text, render_of_null _ hset hnone, UnitSet.told, if_pos hnone, UnitSet.baseIndex,
      pairs_set_base hs.exists_base, pairsText_cons, String.toList_append,
      show "0 ".toList = ['0', ' '] from rfl, hzero, show pairsText [] = [] from rfl,
      List.append_nil]
    rfl
  · rw [UnitSet.told, if_neg hnone]
    exact toList_render (fun u _ hnull => u.format_eq hnull) hset hslots hnone level

/-- What is told has the text of the measure. -/
theorem text_told (hset : k.family.sets[index]? = some s) (hs : s.IsChecked)
    (hslots : slots.length = s.units.length) (level level' : ℤ) :
    (⟨some index, s.told slots, level'⟩ : Measure k).text =
      (⟨some index, slots, level⟩ : Measure k).text := by
  have htold := toList_text hset hs (UnitSet.length_told hslots) level'
  rw [UnitSet.told_told, ← toList_text hset hs hslots level] at htold
  exact String.toList_inj.mp (List.cons.inj htold).2

end Measure

end Tabletop
