import Tabletop.Proofs.Sheet.History
import Tabletop.Proofs.Sheet.Inherited

/-!
# Merged combinations

One combination is merged into another: what does the total of both together amount to? The tree
and the modifiers of the other one are taken over, but not the values beside its tree, which were
added while it had none.

* **Assembled** are the combinations that any sequence of calls makes, merges of other such
  combinations among them. They hold well-formed values only, which are summed exactly
  (`Assembled.sumsTo_total`);
* a merge joins the trees (`valuesAll_add`), and describing a tree changes none of its values
  (`valuesAll_describe`);
* **merging adds the totals** up to what lies beside the other tree (`total_add`): exactly if that
  amounts to nothing, no contribution is lost.
-/

namespace Tabletop

open Rational

variable {α : Type}

namespace Node

mutual

/-- Describing a tree changes none of its values. -/
theorem values_describe (description : String) :
    ∀ n : Node α, (n.describe description).values = n.values
  | mk origin children => by
    rw [values_eq, values_eq (mk origin children)]
    exact congrArg (origin.value.toList ++ ·) (valuesAll_describeAll description children)

theorem valuesAll_describeAll (description : String) :
    ∀ ns : List (Node α), valuesAll (describeAll description ns) = valuesAll ns
  | [] => rfl
  | n :: ns => by
    rw [describeAll, valuesAll_cons, valuesAll_cons, values_describe description n,
      valuesAll_describeAll description ns]

end

end Node

namespace Combination

open Node

/-- **A merge joins the trees**, whichever of them are there. -/
theorem valuesAll_add (c d : Combination α) (description : String) :
    valuesAll (c.add d description).root.toList =
      valuesAll c.root.toList ++ valuesAll d.root.toList := by
  unfold add
  cases hc : c.root <;> cases hd : d.root <;>
    simp [values_addChildren, values_describe]

/-- A value joins the tree or the values beside it. -/
theorem held_addValue (c : Combination α) (v : Contribution α) :
    (valuesAll (c.addValue v).root.toList = valuesAll c.root.toList ++ [v.value] ∧
        (c.addValue v).values = c.values) ∨
      ((c.addValue v).root = c.root ∧ (c.addValue v).values = c.values ++ [v]) := by
  unfold addValue
  cases hroot : c.root with
  | some root =>
    refine .inl ⟨?_, rfl⟩
    simp only [Option.toList_some, valuesAll_cons, valuesAll_nil, values_addChildren,
      List.append_nil]
    rfl
  | none => exact .inr ⟨rfl, rfl⟩

/-! ## Assembled combinations -/

variable [Quantity α]

/-- All that counts for the total: the defined values of the tree, and those beside it. -/
def counted (c : Combination α) : List α :=
  definedOf (valuesAll c.root.toList) ++ c.values.map (·.value)

/-- What counts in a merge is what counts in both, without what lies beside the other tree. -/
theorem counted_add (c d : Combination α) (description : String) :
    ((c.add d description).counted ++ d.values.map (·.value)).Perm (c.counted ++ d.counted) := by
  have hvalues : (c.add d description).values = c.values := rfl
  rw [counted, counted, counted, valuesAll_add, hvalues, definedOf, List.filter_append]
  simp only [definedOf, List.append_assoc, List.perm_append_left_iff]
  rw [← List.append_assoc, ← List.append_assoc]
  exact List.perm_append_comm.append_right _

variable [Amount α]

/-- A combination made by any sequence of calls that adds no expression. -/
inductive Assembled : Combination α → Prop
  | empty (name entry : String) : Assembled (.empty name entry)
  | collect (name : String) (e : Entry α) (h : ∀ v ∈ e.plainValues name, Amount.Valid v) :
    Assembled (.collect name e)
  | addValue {c : Combination α} {v : Contribution α} (hc : Assembled c)
    (hvalid : Amount.Valid v.value) (hdefined : Quantity.isDefined v.value = true) :
    Assembled (c.addValue v)
  | addModifier {c : Combination α} (hc : Assembled c) (m : Contribution Modifier) :
    Assembled (c.addModifier m)
  | add {c d : Combination α} (hc : Assembled c) (hd : Assembled d) (description : String) :
    Assembled (c.add d description)

namespace Assembled

variable {c d : Combination α}

theorem no_expressions (hc : Assembled c) : c.expressions = [] := by
  induction hc with
  | empty => rfl
  | collect => rfl
  | addValue _ _ _ ih => exact (expressions_make _ (.value _)).trans (by rw [ih]; rfl)
  | addModifier _ _ ih => exact ih
  | add _ _ _ ih _ => exact ih

/-- All values held are valid, in the tree and beside it. -/
theorem valid (hc : Assembled c) :
    (∀ v ∈ valuesAll c.root.toList, Amount.Valid v) ∧ ∀ v ∈ c.values, Amount.Valid v.value := by
  induction hc with
  | empty => exact ⟨by rintro v ⟨⟩, by rintro v ⟨⟩⟩
  | collect name e h =>
    refine ⟨fun v hv => h v ?_, by rintro v ⟨⟩⟩
    exact e.valuesAll_collect name ▸ hv
  | @addValue c v _ hvalid _ ih =>
    obtain ⟨htree, hbeside⟩ := ih
    rcases c.held_addValue v with ⟨hroot, hvalues⟩ | ⟨hroot, hvalues⟩ <;> rw [hroot, hvalues]
    · refine ⟨fun w hw => ?_, hbeside⟩
      rcases List.mem_append.mp hw with hw | hw
      · exact htree w hw
      · rwa [List.mem_singleton.mp hw]
    · refine ⟨htree, fun w hw => ?_⟩
      rcases List.mem_append.mp hw with hw | hw
      · exact hbeside w hw
      · rwa [List.mem_singleton.mp hw]
  | addModifier _ _ ih => exact ih
  | @add c d _ _ description ihc ihd =>
    rw [valuesAll_add]
    refine ⟨fun v hv => ?_, ihc.2⟩
    exact (List.mem_append.mp hv).elim (ihc.1 v) (ihd.1 v)

/-- **The total** of what was assembled is the sum of all that counts. -/
theorem sumsTo_total (hα : Amount.IsExact α) (hc : Assembled c) :
    ∃ t, c.total = .ok t ∧ SumsTo c.totalSteps (counted c) t :=
  Combination.sumsTo_total hα hc.no_expressions hc.valid.1 hc.valid.2

end Assembled

/-! ## Totals -/

section Totals

variable {k : Kind} {a b : Combination (Measure k)}

/-- What the values beside the tree amount to together. -/
def besideAmount (c : Combination (Measure k)) : ℚ :=
  (c.values.map fun v => v.value.normalized.toRat).sum

/-- The exact results of the steps of normalizing the values beside the tree. -/
def besideSteps (c : Combination (Measure k)) : List ℚ :=
  c.values.flatMap fun v => v.value.normalizedSteps

/-- The side values amount to the sum of their amounts. -/
theorem besideAmount_eq (hk : k.family.IsChecked) (hvalid : ∀ v ∈ b.values, v.value.WellFormed)
    (h : Lossless b.besideSteps) :
    b.besideAmount = ((b.values.map (·.value)).map Measure.amount).sum := by
  rw [besideAmount, List.map_map]
  refine congrArg List.sum (List.map_congr_left fun v hv => ?_)
  refine Measure.toRat_normalized hk (hvalid v hv) fun q hq => h q ?_
  exact List.mem_flatMap.mpr ⟨v, hv, hq⟩

/-- **Merging adds the totals** exactly if the values beside the other tree amount to nothing; they
are not taken over. -/
theorem total_add {definition : String} (hk : Family.parse definition = .ok k.family)
    (ha : Assembled a) (hb : Assembled b) (description : String) :
    (a.add b description).modifiers = a.modifiers ++ b.modifiers ∧
    ∃ ta tb t, a.total = .ok ta ∧ b.total = .ok tb ∧ (a.add b description).total = .ok t ∧
      (Lossless (a.totalSteps ++ b.totalSteps ++ (a.add b description).totalSteps ++
          amountSteps ta ++ amountSteps tb ++ amountSteps t ++ b.besideSteps) →
        normalizedAmount t + b.besideAmount = normalizedAmount ta + normalizedAmount tb ∧
        (normalizedAmount t = normalizedAmount ta + normalizedAmount tb ↔ b.besideAmount = 0)) := by
  have hchecked := Family.isChecked_of_parse hk
  have hexact := Measure.isExact hchecked
  obtain ⟨ta, hta, hasum⟩ := ha.sumsTo_total hexact
  obtain ⟨tb, htb, hbsum⟩ := hb.sumsTo_total hexact
  obtain ⟨t, ht, hsum⟩ := (ha.add hb description).sumsTo_total hexact
  refine ⟨rfl, ta, tb, t, hta, htb, ht, fun hl => ?_⟩
  simp only [lossless_append] at hl
  obtain ⟨⟨⟨⟨⟨⟨hasteps, hbsteps⟩, hsteps⟩, haamount⟩, hbamount⟩, hamount⟩, hbeside⟩ := hl
  have htotals : normalizedAmount t + b.besideAmount =
      normalizedAmount ta + normalizedAmount tb := by
    rw [normalizedAmount_of_sumsTo hchecked hasum hasteps haamount,
      normalizedAmount_of_sumsTo hchecked hbsum hbsteps hbamount,
      normalizedAmount_of_sumsTo hchecked hsum hsteps hamount,
      besideAmount_eq hchecked hb.valid.2 hbeside, ← List.sum_append, ← List.sum_append,
      ← List.map_append, ← List.map_append]
    exact ((a.counted_add b description).map _).sum_eq
  refine ⟨htotals, ?_⟩
  rw [← htotals, left_eq_add]

/-- A hero whose belt gives an inch of reach. -/
def beltedHero : Combination (Measure (.standard .distance)) :=
  (empty "reach" "hero").addValue ⟨inch, "belt", none⟩

/-- The hero's reach with that of a giant. -/
theorem total_add_beltedHero :
    (beltedHero.add (collect "reach" ownReach) "ally").modifiers = [] ∧
    ∃ ta tb t, beltedHero.total = .ok ta ∧ (collect "reach" ownReach).total = .ok tb ∧
      (beltedHero.add (collect "reach" ownReach) "ally").total = .ok t ∧
      normalizedAmount t = normalizedAmount ta + normalizedAmount tb := by
  have ha : Assembled beltedHero := .addValue (.empty _ _) (.inSet rfl rfl) rfl
  obtain ⟨hmodifiers, ta, tb, t, hta, htb, ht, h⟩ := total_add
    (Dimension.parse_definition .distance) ha (.collect "reach" ownReach wellFormed_ownReach) "ally"
  refine ⟨hmodifiers, ta, tb, t, hta, htb, ht, ?_⟩
  obtain rfl : some inch = ta := Except.ok.inj hta
  obtain rfl : some ⟨some 0, [none, some (.signed 7 1 2), none], 20⟩ = tb := Except.ok.inj htb
  obtain rfl : some ⟨some 0, [none, some (.ofInt 7), some (.ofInt 7)], 20⟩ = t := Except.ok.inj ht
  exact (h (by decide +kernel)).2.mpr rfl

/-- Five feet. -/
def fiveFeet : Measure (.standard .distance) := ⟨some 0, [none, some (.ofInt 5), none], 20⟩

/-- A rope whose knot gives it five feet. -/
def knottedRope : Combination (Measure (.standard .distance)) :=
  (empty "length" "rope").addValue ⟨fiveFeet, "knot", none⟩

/-- An empty pack. -/
def emptyPack : Combination (Measure (.standard .distance)) := empty "length" "pack"

/-- **A contribution is lost** when it was given before there was a tree: a pack that the rope is
put into has no length. -/
theorem total_add_knottedRope :
    Assembled emptyPack ∧ Assembled knottedRope ∧ emptyPack.total = .ok none ∧
    knottedRope.total = .ok (some fiveFeet) ∧
    (emptyPack.add knottedRope "contents").total = .ok none ∧
    normalizedAmount (none : Option (Measure (.standard .distance))) ≠
      normalizedAmount (none : Option (Measure (.standard .distance))) +
        normalizedAmount (some fiveFeet) := by
  refine ⟨.empty _ _, .addValue (.empty _ _) (.inSet rfl rfl) rfl, rfl, rfl, rfl, ?_⟩
  decide +kernel

end Totals

end Combination

end Tabletop
