import Tabletop.Proofs.Sheet.Gathered

/-!
# Own and inherited values

Whether a combination tells the value of the entry itself from those of its bases. The root of the
tree decides: it counts as the entry's own, and all below it as inherited. But an entry that stores
a modifier has no node, and the root is then that of the heir, whose value is taken for the entry's
own.

* **TellsApart** says what is expected of a combination just collected: **topValue** and
  **isEditable** speak of the entry itself, **base** sums the values of its bases, and the total is
  base and own value together;
* everything depends on the root alone: if its value is the entry's own, then what is below it is
  inherited (`TellsApart.of_top`);
* **own and inherited values are told apart** exactly if no heir takes the place of an entry that
  stores a modifier (`tellsApart_iff`).
-/

namespace Tabletop

open Rational

namespace Combination

open Node

variable {k : Kind}

/-- The normalized amount of a value; an absent one counts as zero. -/
def normalizedAmount (value : Option (Measure k)) : ℚ :=
  (value.map fun m => m.normalized.toRat).getD 0

/-- The exact results of the steps of normalizing a value, if there is one. -/
def amountSteps (value : Option (Measure k)) : List ℚ :=
  value.toList.flatMap Measure.normalizedSteps

/-- What is collected for an entry tells the entry's own value from the inherited ones. -/
structure TellsApart (name : String) (e : Entry (Measure k)) : Prop where
  /-- the top value is what the entry itself stores -/
  top : (collect name e).topValue = e.ownValue? name
  /-- and it is editable if it stores a value -/
  editable : (collect name e).isEditable = (e.ownValue? name).isSome
  /-- the base sums the defined values of all bases -/
  base : ∃ b, (collect name e).base = .ok b ∧
    (b = none ↔ definedOf (e.inheritedValues name) = []) ∧
    (Lossless ((collect name e).baseSteps ++ amountSteps b ++
        (definedOf (e.inheritedValues name)).flatMap Measure.normalizedSteps) →
      normalizedAmount b =
        ((definedOf (e.inheritedValues name)).map fun m => m.normalized.toRat).sum)
  /-- the total is the base and the own value -/
  total : ∃ t b, (collect name e).total = .ok t ∧ (collect name e).base = .ok b ∧
    (Lossless ((collect name e).totalSteps ++ (collect name e).baseSteps ++ amountSteps t ++
        amountSteps b ++ amountSteps (e.ownValue? name)) →
      normalizedAmount t = normalizedAmount b + normalizedAmount (e.ownValue? name))

section Amounts

variable (hk : k.family.IsChecked) {steps : List ℚ} {vs : List (Measure k)}
  {value : Option (Measure k)}

include hk

/-- The normalized amount of a sum is the sum of the amounts, if nothing is cut. -/
theorem normalizedAmount_of_sumsTo (h : SumsTo steps vs value) (hsteps : Lossless steps)
    (hvalue : Lossless (amountSteps value)) :
    normalizedAmount value = (vs.map Measure.amount).sum := by
  cases value with
  | none =>
    obtain rfl : vs = [] := h
    rfl
  | some m =>
    obtain ⟨-, hm, hamount⟩ := h
    exact (Measure.toRat_normalized hk hm (by simpa [amountSteps] using hvalue)).trans
      (hamount hsteps)

/-- A value that is not defined amounts to nothing. -/
theorem normalizedAmount_eq (hvalid : ∀ m ∈ value, m.WellFormed)
    (hvalue : Lossless (amountSteps value)) :
    normalizedAmount value = ((definedOf value.toList).map Measure.amount).sum := by
  cases value with
  | none => rfl
  | some m =>
    have hnormalized : normalizedAmount (some m) = m.amount :=
      Measure.toRat_normalized hk (hvalid m rfl) (by simpa [amountSteps] using hvalue)
    rw [hnormalized]
    cases hdef : Quantity.isDefined m with
    | true => simp [definedOf, hdef]
    | false => simp [definedOf, hdef, Measure.amount_of_undefined hdef]

end Amounts

variable {name : String} {e : Entry (Measure k)}

/-- The value on top is that of the entry, unless the entry stores a modifier and a base gives its
value. -/
theorem topValue_eq_ownValue?
    (h : e.storesModifier name = true → ∀ d, e.heir? name = some d → d.ownValue? name = none) :
    (collect name e).topValue = e.ownValue? name := by
  rw [topValue_collect]
  cases hstores : e.storesModifier name with
  | false =>
    rw [Entry.heir?_eq_self hstores]
    rfl
  | true =>
    rw [Entry.ownValue?_of_storesModifier hstores]
    cases hheir : e.heir? name with
    | none => rfl
    | some d => exact h hstores d hheir

/-- Everything follows from the top value. -/
theorem TellsApart.of_top (hk : k.family.IsChecked) (hwf : ∀ m ∈ e.plainValues name, m.WellFormed)
    (htop : (collect name e).topValue = e.ownValue? name) : TellsApart name e := by
  have hroot : valuesAll (collect name e).root.toList = e.plainValues name :=
    e.valuesAll_collect name
  -- the root holds the own value, so what is left below it is inherited
  have hbelow : (collect name e).valuesBelow = e.inheritedValues name := by
    have h := topValue_append_below name e
    rw [htop] at h
    exact List.append_cancel_left h
  have hvalid : ∀ m ∈ valuesAll (collect name e).root.toList, Amount.Valid m := hroot ▸ hwf
  obtain ⟨t, ht, htsum⟩ := sumsTo_total (Measure.isExact hk) (c := collect name e) rfl hvalid
    (by rintro v ⟨⟩)
  obtain ⟨b, hb, hbsum⟩ := sumsTo_base (Measure.isExact hk) (c := collect name e) rfl hvalid
    (by rintro v ⟨⟩)
  have hvalues : (collect name e).values.map (·.value) = [] := rfl
  rw [hvalues, List.append_nil] at htsum hbsum
  rw [hroot, Entry.plainValues_eq, definedOf, List.filter_append] at htsum
  rw [hbelow] at hbsum
  rw [Entry.plainValues_eq] at hwf
  refine ⟨htop, by rw [isEditable, htop], ⟨b, hb, hbsum.eq_none_iff, fun hl => ?_⟩,
    t, b, ht, hb, fun hl => ?_⟩
  · simp only [lossless_append] at hl
    obtain ⟨⟨hsteps, hamount⟩, hinherited⟩ := hl
    rw [normalizedAmount_of_sumsTo hk hbsum hsteps hamount,
      Measure.map_toRat_normalized hk ?_ hinherited]
    exact fun m hm => hwf m (List.mem_append_right _ (List.mem_of_mem_filter hm))
  · simp only [lossless_append] at hl
    obtain ⟨⟨⟨⟨htsteps, hbsteps⟩, hta⟩, hba⟩, hown⟩ := hl
    have hownwf : ∀ m ∈ e.ownValue? name, m.WellFormed := fun m hm =>
      hwf m (List.mem_append_left _ (Option.mem_toList.mpr hm))
    rw [normalizedAmount_of_sumsTo hk htsum htsteps hta,
      normalizedAmount_of_sumsTo hk hbsum hbsteps hba, normalizedAmount_eq hk hownwf hown,
      List.map_append, List.sum_append, add_comm]
    rfl

/-- **Own and inherited values are told apart** exactly if no heir's value takes the place of a
modifier. -/
theorem tellsApart_iff {definition : String} (hk : Family.parse definition = .ok k.family)
    (hwf : ∀ m ∈ e.plainValues name, m.WellFormed) :
    TellsApart name e ↔
      (e.storesModifier name = true → ∀ d, e.heir? name = some d → d.ownValue? name = none) := by
  constructor
  · intro h hstores d hheir
    have htop := h.top
    rw [topValue_collect, hheir, Entry.ownValue?_of_storesModifier hstores] at htop
    exact htop
  · intro h
    exact .of_top (Family.isChecked_of_parse hk) hwf (topValue_eq_ownValue? h)

/-- An entry with a value of its own. -/
theorem tellsApart_ownReach : TellsApart "reach" ownReach := by
  refine (tellsApart_iff (Dimension.parse_definition .distance) wellFormed_ownReach).mpr ?_
  intro h
  exact absurd h (by decide)

/-- An entry that only adds to the reach of the one that it derives from. -/
def modifiedReach : Entry (Measure (.standard .distance)) :=
  .mk "giant" [("reach", .modifier (.general 1))]
    [.mk "ogre" [("reach", .plain ⟨some 0, [none, some (.ofInt 5), none], 20⟩)] []]

/-- **An inherited value is taken for the entry's own** where the entry stores a modifier. -/
theorem not_tellsApart_modifiedReach :
    modifiedReach.ownValue? "reach" = none ∧
      (collect "reach" modifiedReach).topValue =
        some ⟨some 0, [none, some (.ofInt 5), none], 20⟩ ∧
      ¬ TellsApart "reach" modifiedReach := by
  refine ⟨by decide, by decide, fun h => ?_⟩
  exact absurd h.top (by decide)

end Combination

end Tabletop
