import Mathlib.Data.List.ReduceOption
import Tabletop.Proofs.Measure.Defined
import Tabletop.Proofs.Measure.Standard
import Tabletop.Proofs.Rational.ReadBack
import Tabletop.Proofs.Value.Sum
import Tabletop.Proofs.Value.Text
import Tabletop.Record.Values

/-!
# Records of values, restored

The record of a value is its kind and its text, so it is restored if its text is read back.

* **Computed** values are those that are read and then added, scaled and simplified. They stay such
  as can be stored (`Computed.sound`), though their amounts may get cut;
* a computed value that is not cut is **restored** with its kind, its text and its normalized amount
  exactly if it is no measure or a readable one (`restored_iff`). Numbers, rationals and dice always
  are. A duration of rounds and actions is not (`not_restored_roundAndAction`), nor is a measure
  that was scaled below zero (`not_restored_negative`).
-/

namespace Tabletop

open Rational Json Record

namespace Value

/-! ## The record of a value -/

/-- Every kind of value has a name of its own. -/
theorem ofName?_name (kind : ValueKind) : ValueKind.ofName? kind.name = some kind := by
  cases kind with
  | measure d => cases d <;> rfl
  | _ => rfl

/-- Values whose kinds have one name are of one kind. -/
theorem kind_eq_of_kindName {v w : Value} (h : Quantity.kindName v = Quantity.kindName w) :
    v.kind = w.kind := by
  have hname : ValueKind.ofName? v.kind.name = ValueKind.ofName? w.kind.name :=
    congrArg ValueKind.ofName? h
  rw [ofName?_name, ofName?_name] at hname
  exact Option.some.inj hname

/-- **The record of a value is restored** by reading its text as its kind. -/
theorem decode_encode (v : Value) :
    Recorded.decode (Recorded.encode v) = Value.parse v.kind v.text := by
  have hparts : valueParts? (Recorded.encode v) = some (v.kind, v.text) := by
    have hkind : keyword? ValueKind.ofName? (some (maxDepth - 1)) (.text v.kind.name) =
        some v.kind := ofName?_name v.kind
    change valueParts? (.record [("kind", .text v.kind.name), ("text", .text v.text)]) = _
    rw [valueParts?, fields?_record (by simp) (by simp)]
    simp [Fields.required, get?_cons, hkind, text?_text]
  rw [Recorded.decode]
  simp only [instRecordedValue, hparts]
  rfl

/-! ## Values that are computed -/

/-- Values that are read and computed. -/
inductive Computed : Value → Prop
  | parse {kind : ValueKind} {source : String} {v : Value} (h : parse kind source = .ok v) :
    Computed v
  | add {v w s : Value} (hv : Computed v) (hw : Computed w) (h : v.add w = .ok s) : Computed s
  | scale {v : Value} (hv : Computed v) {factor : Rational} (hfactor : factor.isDefined = true) :
    Computed (v.scale factor)
  | simplified {v : Value} (hv : Computed v) : Computed v.simplified

/-- Values that can be stored, as far as their kinds demand it. -/
def Sound : Value → Prop
  | number n => Fits n
  | rational _ => True
  | dice d => d.Sound
  | measure _ m => m.WellFormed ∧ m.slots.AreDefined

/-- A numeral is a number that can be stored. -/
theorem fits_of_int? {cs : List Char} {n : ℤ} (h : Numeral.int? cs = some n) : Fits n := by
  unfold Numeral.int? at h
  dsimp only at h
  split at h
  · rename_i hfits
    cases h
    exact hfits.2.2
  · cases h

/-- A value that was parsed is sound. -/
theorem sound_of_parse {kind : ValueKind} {source : String} {v : Value}
    (h : parse kind source = .ok v) : v.Sound := by
  cases kind with
  | number =>
    obtain ⟨n, hn, rfl⟩ := map_eq_ok h
    unfold parseNumber at hn
    split at hn
    · rename_i hread
      cases hn
      exact fits_of_int? hread
    · cases hn
  | rational =>
    obtain ⟨r, -, rfl⟩ := map_eq_ok h
    trivial
  | dice =>
    obtain ⟨d, hd, rfl⟩ := map_eq_ok h
    unfold Dice.parse at hd
    split at hd
    · rename_i hread
      split at hd <;> cases hd
      exact Dice.sound_of_read hread
    · cases hd
  | measure d =>
    obtain ⟨m, hm, rfl⟩ := map_eq_ok h
    obtain ⟨rest, hread⟩ := Measure.exists_read_of_parse hm
    exact ⟨Measure.wellFormed_of_read hread, Measure.areDefined_of_read hread⟩

theorem Sound.add {v w s : Value} (hv : v.Sound) (hw : w.Sound) (h : v.add w = .ok s) :
    s.Sound := by
  unfold Value.add at h
  split at h
  · obtain ⟨n, hn, rfl⟩ := map_eq_ok h
    cases hn
    exact fits_clamp _
  · cases h
    trivial
  · obtain ⟨d, hd, rfl⟩ := map_eq_ok h
    exact Dice.Sound.add hv hw hd
  · rename_i d m e n
    split at h
    · rename_i hkind
      cases hkind
      cases h
      have hchecked : (Kind.standard d).family.IsChecked := d.isChecked_family
      exact ⟨hv.1.add hw.1, Measure.areDefined_add hchecked hw.1 hv.2 hw.2⟩
    · cases h
  · cases h

/-- A product without its fraction fits. -/
theorem fits_truncated_multiply (r s : Rational) : Fits (r.multiply s).truncated := by
  have hwhole : Fits ((r.multiply s).whole : ℤ) := by
    unfold multiply reduced
    split
    · split
      · decide
      · exact fits_clampNat _
    · decide
  unfold truncated
  unfold Fits minStored maxStored at *
  split <;> omega

/-- A sound value times a defined factor is sound. -/
theorem Sound.scale {v : Value} (hv : v.Sound) {factor : Rational}
    (hfactor : factor.isDefined = true) : (v.scale factor).Sound := by
  cases v with
  | number n => exact fits_truncated_multiply _ _
  | rational r => trivial
  | dice d =>
    change (d.scale factor).Sound
    unfold Dice.scale
    split
    · exact hv
    · exact Dice.Sound.multiply hv _
  | measure d m =>
    have hchecked : (Kind.standard d).family.IsChecked := d.isChecked_family
    exact ⟨hv.1.multiply factor, Measure.areDefined_multiply hchecked hv.2 hfactor⟩

theorem Sound.simplified {v : Value} (hv : v.Sound) : v.simplified.Sound := by
  cases v with
  | measure d m =>
    have hchecked : (Kind.standard d).family.IsChecked := d.isChecked_family
    exact ⟨hv.1.simplify, Measure.areDefined_simplify hchecked hv.2⟩
  | _ => exact hv

/-- **Whatever is computed is sound.** -/
theorem Computed.sound {v : Value} (h : v.Computed) : v.Sound := by
  induction h with
  | parse h => exact sound_of_parse h
  | add _ _ h ihv ihw => exact ihv.add ihw h
  | scale _ hfactor ih => exact ih.scale hfactor
  | simplified _ ih => exact ih.simplified

/-! ## Values that come back -/

/-- The amounts in a value, which are cut if they cannot be stored. -/
def amounts : Value → List Rational
  | rational r => [r]
  | measure _ m => m.slots.reduceOption
  | _ => []

/-- The amount of a measure on the scale of its kind. -/
def normalized? : Value → Option Rational
  | measure _ m => some m.normalized
  | _ => none

/-- The exact results of the steps of `normalized?`. -/
def normalizedSteps : Value → List ℚ
  | measure _ m => m.normalizedSteps
  | _ => []

/-- No amount of the value is cut, nor is a step of adding them up. -/
structure NotCut (v : Value) : Prop where
  canonical : ∀ r ∈ v.amounts, r.Canonical
  lossless : Lossless v.normalizedSteps

/-- The record gives a value of the same kind, with the same text and the same normalized amount. -/
def Restored (v : Value) : Prop :=
  ∃ w : Value, Recorded.decode (Recorded.encode v) = .ok w ∧ w.kind = v.kind ∧ w.text = v.text ∧
    w.normalized? = v.normalized?

/-- The text of the value can be read back. -/
def IsReadable : Value → Prop
  | measure _ m => m.IsReadable
  | _ => True

/-- **What comes back from its record.** A defined value that was read and computed without a cut is
restored exactly if it is no measure, or one without negative amounts and without rounds beside
actions. -/
theorem restored_iff {v : Value} (hv : v.Computed) (hdef : v.isDefined = true) (hcut : v.NotCut) :
    v.Restored ↔ v.IsReadable := by
  have hsound := hv.sound
  unfold Restored
  rw [decode_encode]
  cases v with
  | number n =>
    refine iff_of_true ⟨.number n, ?_, rfl, rfl, rfl⟩ trivial
    exact congrArg (Except.map _) (parseNumber_plain hsound)
  | rational r =>
    have hterms := (hcut.canonical r List.mem_cons_self).inLowestTerms hdef
    refine iff_of_true ⟨.rational r, ?_, rfl, rfl, rfl⟩ trivial
    exact congrArg (Except.map _) (Rational.parse_text hterms)
  | dice d =>
    obtain ⟨e, he, htext⟩ := Dice.exists_parse_text hsound hdef
    refine iff_of_true ⟨.dice e, ?_, rfl, htext, rfl⟩ trivial
    exact congrArg (Except.map _) he
  | measure d m =>
    obtain ⟨hwf, hamounts⟩ := hsound
    have hterms : ∀ amount, some amount ∈ m.slots → amount.InLowestTerms := fun amount ha =>
      (hcut.canonical amount (List.reduceOption_mem_iff.mpr ha)).inLowestTerms (hamounts amount ha)
    constructor
    · rintro ⟨w, hw, -⟩
      by_contra hr
      have hrefused := Measure.parse_text_of_not_isReadable hwf hdef hterms hr
      obtain ⟨n, hn, -⟩ := map_eq_ok hw
      exact absurd (hrefused.symm.trans hn) (by rintro ⟨⟩)
    · intro hr
      obtain ⟨n, hn, htext, hnormalized⟩ := Measure.parse_text_of_isReadable hwf hdef hterms hr
      refine ⟨.measure d n, congrArg (Except.map _) hn, rfl, htext, ?_⟩
      exact congrArg some (hnormalized hcut.lossless)

/-- A foot more than a mile, halved. -/
theorem restored_halfMile :
    ∃ v : Value, parse (.measure .distance) "1 ft 1 mi" = .ok v ∧
      (v.scale ⟨false, 0, 1, 2⟩).text = "2640 1/2 ft" ∧ (v.scale ⟨false, 0, 1, 2⟩).Restored := by
  let v : Value := .measure .distance ⟨some 0, [some .one, some .one, none], 3⟩
  let half : Value := .measure .distance ⟨some 0, [none, some ⟨false, 2640, 1, 2⟩, none], 3⟩
  have hparse : parse (.measure .distance) "1 ft 1 mi" = .ok v := by decide +kernel
  have hhalf : v.scale ⟨false, 0, 1, 2⟩ = half := by decide +kernel
  have hv : half.Computed := hhalf ▸ .scale (.parse hparse) (by decide)
  have hcut : half.NotCut := by
    refine ⟨fun r hr => ?_, by decide +kernel⟩
    obtain rfl := List.mem_singleton.mp hr
    exact canonical_iff.mpr (.inr (by decide))
  refine ⟨v, hparse, by decide +kernel, hhalf ▸ (restored_iff hv rfl hcut).mpr ⟨?_, ?_⟩⟩
  · intro amount hamount
    obtain rfl : amount = ⟨false, 2640, 1, 2⟩ := by simpa using hamount
    rfl
  · rintro ⟨⟨⟩, -⟩

/-- **Rounds and actions** added up do not come back: the rounds decide for the set that has no
actions. -/
theorem not_restored_roundAndAction :
    ∃ v : Value, parse (.measure .duration) "1 standard action 1 round" = .ok v ∧ v.Computed ∧
      v.isDefined = true ∧ v.NotCut ∧ v.text = "1 round 1 standard action" ∧
      Recorded.decode (Recorded.encode v) =
        (.error (.unreadable "duration" "1 round 1 standard action") : Except Failure Value) ∧
      ¬ v.Restored := by
  let v : Value := .measure .duration ⟨some 2, [some .one, some .one, none, none, none], 5⟩
  have hparse : parse (.measure .duration) "1 standard action 1 round" = .ok v := by decide +kernel
  have hcut : v.NotCut := by
    refine ⟨fun r hr => ?_, by decide +kernel⟩
    obtain rfl : r = .one := by simpa [v, amounts] using hr
    exact canonical_iff.mpr (.inr (by decide))
  have hrefused : Recorded.decode (Recorded.encode v) =
      (.error (.unreadable "duration" "1 round 1 standard action") : Except Failure Value) := by
    decide +kernel
  refine ⟨v, hparse, .parse hparse, rfl, hcut, by decide +kernel, hrefused, ?_⟩
  rintro ⟨w, hw, -⟩
  rw [hrefused] at hw
  cases hw

/-- **Amounts below zero** do not come back: a measure is read without them. -/
theorem not_restored_negative :
    ∃ v : Value, parse (.measure .distance) "5 ft" = .ok v ∧
      (v.scale (.ofInt (-1))).isDefined = true ∧ (v.scale (.ofInt (-1))).NotCut ∧
      (v.scale (.ofInt (-1))).text = "-5 ft" ∧
      Recorded.decode (Recorded.encode (v.scale (.ofInt (-1)))) =
        (.error (.unreadable "distance" "-5 ft") : Except Failure Value) := by
  let v : Value := .measure .distance ⟨some 0, [none, some (.ofInt 5), none], 3⟩
  let back : Value := .measure .distance ⟨some 0, [none, some (.ofInt (-5)), none], 3⟩
  have hparse : parse (.measure .distance) "5 ft" = .ok v := by decide +kernel
  have hback : v.scale (.ofInt (-1)) = back := by decide +kernel
  have hcut : back.NotCut := by
    refine ⟨fun r hr => ?_, by decide +kernel⟩
    obtain rfl := List.mem_singleton.mp hr
    exact canonical_iff.mpr (.inr (by decide))
  exact ⟨v, hparse, by decide +kernel, hback ▸ hcut, by decide +kernel, by decide +kernel⟩

end Value

end Tabletop
