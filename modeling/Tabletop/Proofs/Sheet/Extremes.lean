import Tabletop.Proofs.Sheet.Collected
import Tabletop.Proofs.Sheet.Partition
import Tabletop.Proofs.Value.Order

/-!
# Least and greatest values

A combination picks the least and the greatest of its values: it goes through them and keeps the
best one so far.

* Among values of one kind, **no value goes beyond the one picked** (`pick_extreme`). The invariant
  is that none of those seen goes beyond the one kept; it survives a step because ranks are a linear
  order (`not_beyond_trans`);
* the values are sums of what the combination holds, so they are **such as can be made** if that is
  (`Node.valid_flatten`, `Combination.valid_valuesOnly`);
* simplifying the value picked does not change its rank. So the minimum and the maximum are
  **extreme values**, for every type of values (`extremes_exact`).
-/

namespace Tabletop

open Rational

/-! ## Beyond -/

/-- If the second value is not beyond the first, nor the third beyond the second, then the third is
not beyond the first. -/
theorem not_beyond_trans {α : Type} [LinearOrder α] {wanted : Ordering} {a b c : α}
    (hba : Ord.compare b a ≠ wanted) (hcb : Ord.compare c b ≠ wanted) (hwanted : wanted ≠ .eq) :
    Ord.compare c a ≠ wanted := by
  cases wanted with
  | eq => exact absurd rfl hwanted
  | lt =>
    rw [compare_ge_iff_ge] at hba hcb ⊢
    exact hba.trans hcb
  | gt =>
    rw [compare_le_iff_le] at hba hcb ⊢
    exact hcb.trans hba

/-- A value is not beyond another one that is beyond it. -/
theorem not_beyond_of_beyond {α : Type} [LinearOrder α] {wanted : Ordering} {a b : α}
    (h : Ord.compare b a = wanted) (hwanted : wanted ≠ .eq) : Ord.compare a b ≠ wanted := by
  rw [Std.OrientedOrd.eq_swap (a := a), h]
  cases wanted with
  | eq => exact absurd rfl hwanted
  | lt | gt => simp [Ordering.swap]

namespace Combination

section Pick

variable {α : Type} [Quantity α] [Ranked α]

/-- **Going through values** of one kind keeps one of them, and none of them is beyond it. -/
theorem foldl_extreme (hα : Ranked.IsOrdered α) {wanted : Ordering} (hwanted : wanted ≠ .eq)
    (vs : List α) : ∀ v : α, (∀ w ∈ vs, Quantity.kindName w = Quantity.kindName v) →
      ∃ best ∈ v :: vs,
        vs.foldl (fun best w => if Quantity.compare w best = some wanted then w else best) v =
          best ∧
        ∀ w ∈ v :: vs, Ord.compare (Ranked.rank w) (Ranked.rank best) ≠ wanted := by
  induction vs with
  | nil =>
    intro v _
    refine ⟨v, List.mem_singleton_self v, rfl, List.forall_mem_singleton.mpr ?_⟩
    rw [compare_eq_iff_eq.mpr rfl]
    exact hwanted.symm
  | cons w vs ih =>
    intro v hkind
    obtain ⟨hw, hvs⟩ := List.forall_mem_cons.mp hkind
    rw [List.foldl_cons, hα.compare_eq hw]
    by_cases hbeyond : Ord.compare (Ranked.rank w) (Ranked.rank v) = wanted
    · -- the new value takes the place of the one kept
      obtain ⟨best, hmem, hfold, hbest⟩ := ih w fun u hu => (hvs u hu).trans hw.symm
      rw [hbeyond, if_pos rfl]
      refine ⟨best, List.mem_cons_of_mem v hmem, hfold, List.forall_mem_cons.mpr ⟨?_, hbest⟩⟩
      exact not_beyond_trans (hbest w List.mem_cons_self) (not_beyond_of_beyond hbeyond hwanted)
        hwanted
    · -- the one kept stays
      obtain ⟨best, hmem, hfold, hbest⟩ := ih v hvs
      obtain ⟨hv, hrest⟩ := List.forall_mem_cons.mp hbest
      rw [if_neg fun h => hbeyond (Option.some.inj h)]
      refine ⟨best, ?_, hfold, List.forall_mem_cons.mpr ⟨hv, List.forall_mem_cons.mpr ⟨?_, hrest⟩⟩⟩
      · rcases List.mem_cons.mp hmem with rfl | hmem
        · exact List.mem_cons_self
        · exact List.mem_cons_of_mem v (List.mem_cons_of_mem w hmem)
      · exact not_beyond_trans hv hbeyond hwanted

/-- **The value picked** of some of one kind is one of them, and none is beyond it. -/
theorem pick_extreme (hα : Ranked.IsOrdered α) {wanted : Ordering} (hwanted : wanted ≠ .eq)
    {vs : List α} (hne : vs ≠ [])
    (hkind : ∀ v ∈ vs, ∀ w ∈ vs, Quantity.kindName v = Quantity.kindName w) :
    ∃ best ∈ vs, pick wanted vs = some best ∧
      ∀ w ∈ vs, Ord.compare (Ranked.rank w) (Ranked.rank best) ≠ wanted := by
  obtain ⟨v, vs, rfl⟩ := List.exists_cons_of_ne_nil hne
  obtain ⟨best, hmem, hfold, hbest⟩ := foldl_extreme hα hwanted vs v fun w hw =>
    hkind w (List.mem_cons_of_mem v hw) v List.mem_cons_self
  exact ⟨best, hmem, congrArg some hfold, hbest⟩

end Pick

end Combination

/-! ## Values that can be made -/

section Valid

variable {α : Type} [Quantity α] [Ranked α]

/-- All groups have a value that can be made. -/
def AllValid (groups : List (Group α)) : Prop := ∀ g ∈ groups, Ranked.Valid g.value

/-- Merging a group in keeps all values valid. -/
theorem Group.valid_mergeInto (hα : Ranked.IsOrdered α) {groups : List (Group α)} {g : Group α}
    (hgroups : AllValid groups) (hg : Ranked.Valid g.value) : AllValid (mergeInto groups g) := by
  induction groups with
  | nil => exact List.forall_mem_singleton.mpr hg
  | cons held rest ih =>
    obtain ⟨hheld, hrest⟩ := List.forall_mem_cons.mp hgroups
    rw [mergeInto]
    split
    · split
      · rename_i s hs
        exact List.forall_mem_cons.mpr ⟨hα.valid_add hheld hg hs, hrest⟩
      · exact List.forall_mem_cons.mpr ⟨hheld, ih hrest⟩
    · exact List.forall_mem_cons.mpr ⟨hheld, ih hrest⟩

theorem Group.valid_mergeAll (hα : Ranked.IsOrdered α) {gs : List (Group α)} (hgs : AllValid gs) :
    ∀ {groups : List (Group α)}, AllValid groups → AllValid (gs.foldl mergeInto groups) := by
  induction gs with
  | nil => exact id
  | cons g gs ih =>
    intro groups hgroups
    obtain ⟨hg, hgs⟩ := List.forall_mem_cons.mp hgs
    exact ih hgs (valid_mergeInto hα hgroups hg)

namespace Node

theorem valid_ownGroup {origin : Origin α} (h : ∀ v ∈ origin.value, Ranked.Valid v) :
    AllValid (ownGroup origin) := by
  unfold ownGroup
  split
  · rename_i v hv
    split
    · exact List.forall_mem_singleton.mpr (h v hv)
    · exact List.forall_mem_nil _
  · exact List.forall_mem_nil _

mutual

/-- **Sums of values** that can be made can be made. -/
theorem valid_flatten (hα : Ranked.IsOrdered α) :
    ∀ n : Node α, (∀ v ∈ n.values, Ranked.Valid v) → AllValid n.flatten
  | mk origin children, h => by
    have hvalues : (mk origin children).values = origin.value.toList ++ valuesAll children :=
      values_eq _
    rw [hvalues] at h
    have hown : AllValid (ownGroup origin) :=
      valid_ownGroup fun v hv => h v (List.mem_append_left _ (Option.mem_toList.mpr hv))
    exact valid_flattenOnto hα hown children fun v hv => h v (List.mem_append_right _ hv)

theorem valid_flattenOnto (hα : Ranked.IsOrdered α) {groups : List (Group α)}
    (hgroups : AllValid groups) :
    ∀ ns : List (Node α), (∀ v ∈ valuesAll ns, Ranked.Valid v) → AllValid (flattenOnto groups ns)
  | [], _ => hgroups
  | n :: ns, h => by
    rw [valuesAll_cons] at h
    have hn := valid_flatten hα n fun v hv => h v (List.mem_append_left _ hv)
    exact valid_flattenOnto hα (Group.valid_mergeAll hα hn hgroups) ns
      fun v hv => h v (List.mem_append_right _ hv)

end

end Node

end Valid

namespace Combination

variable {α : Type} [Quantity α] [Ranked α]

/-- All values that a combination holds, in its tree and beside it. -/
def held (c : Combination α) : List α := Node.valuesAll c.root.toList ++ c.values.map (·.value)

theorem valid_valuesOnly (hα : Ranked.IsOrdered α) {c : Combination α}
    (h : ∀ v ∈ c.held, Ranked.Valid v) : ∀ v ∈ c.valuesOnly, Ranked.Valid v := by
  obtain ⟨htree, hbeside⟩ := List.forall_mem_append.mp h
  have hgroups : AllValid c.treeGroups := by
    unfold treeGroups
    cases hroot : c.root with
    | none => exact List.forall_mem_nil _
    | some n =>
      rw [hroot, Option.toList_some, Node.valuesAll_cons, Node.valuesAll_nil,
        List.append_nil] at htree
      exact Node.valid_flatten hα n htree
  refine List.forall_mem_append.mpr ⟨List.forall_mem_map.mpr fun g hg => ?_, hbeside⟩
  exact hgroups g ((valueGroups_sublist c _).subset hg)

/-! ## Extremes -/

/-- There are values, all of one kind and made of such as can be made, and no expressions. -/
structure IsComparable (c : Combination α) : Prop where
  expressions : c.expressions = []
  nonempty : c.valuesOnly ≠ []
  one_kind : ∀ v ∈ c.valuesOnly, ∀ w ∈ c.valuesOnly, Quantity.kindName v = Quantity.kindName w
  valid : ∀ v ∈ c.held, Ranked.Valid v

/-- The minimum and the maximum are values, simplified. Where no step is cut, the minimum compares
as less than or equal to every value, and the maximum as greater or equal. -/
structure HasExtremes (c : Combination α) : Prop where
  minimum : ∃ v ∈ c.valuesOnly, c.minimum = some (Quantity.simplified v) ∧
    (Lossless (Ranked.rankSteps v) → ∀ w ∈ c.valuesOnly,
      ∃ o, Quantity.compare (Quantity.simplified v) w = some o ∧ o.isLE = true)
  maximum : ∃ v ∈ c.valuesOnly, c.maximum = some (Quantity.simplified v) ∧
    (Lossless (Ranked.rankSteps v) → ∀ w ∈ c.valuesOnly,
      ∃ o, Quantity.compare (Quantity.simplified v) w = some o ∧ o.isGE = true)

theorem IsComparable.hasExtremes (hα : Ranked.IsOrdered α) {c : Combination α}
    (h : c.IsComparable) : c.HasExtremes := by
  have hfinish : ∀ v, c.finish (some v) = some (Quantity.simplified v) := by
    intro v
    simp [finish, h.expressions]
  have hvalid := valid_valuesOnly hα h.valid
  -- what the simplified value compares as
  have hcompare : ∀ v ∈ c.valuesOnly, Lossless (Ranked.rankSteps v) → ∀ w ∈ c.valuesOnly,
      Quantity.compare (Quantity.simplified v) w =
        some (Ord.compare (Ranked.rank v) (Ranked.rank w)) := by
    intro v hv hl w hw
    rw [hα.compare_eq ((hα.kindName_simplified v).trans (h.one_kind v hv w hw)),
      hα.rank_simplified (hvalid v hv) hl]
  constructor
  · obtain ⟨v, hv, hpick, hbest⟩ :=
      pick_extreme hα (show Ordering.lt ≠ .eq by decide) h.nonempty h.one_kind
    refine ⟨v, hv, by rw [minimum, hpick, hfinish], fun hl w hw => ⟨_, hcompare v hv hl w hw, ?_⟩⟩
    have hle : Ranked.rank v ≤ Ranked.rank w := compare_ge_iff_ge.mp (hbest w hw)
    exact Ordering.ne_gt_iff_isLE.mp (compare_le_iff_le.mpr hle)
  · obtain ⟨v, hv, hpick, hbest⟩ :=
      pick_extreme hα (show Ordering.gt ≠ .eq by decide) h.nonempty h.one_kind
    refine ⟨v, hv, by rw [maximum, hpick, hfinish], fun hl w hw => ⟨_, hcompare v hv hl w hw, ?_⟩⟩
    have hle : Ranked.rank w ≤ Ranked.rank v := compare_le_iff_le.mp (hbest w hw)
    exact Ordering.ne_lt_iff_isGE.mp (compare_ge_iff_ge.mpr hle)

/-- **The minimum and the maximum are extreme values**, for numbers, rationals, dice, measures of
every family that can be read, and values of all kinds. -/
theorem extremes_exact :
    (∀ c : Combination Int, c.IsComparable → c.HasExtremes) ∧
    (∀ c : Combination Rational, c.IsComparable → c.HasExtremes) ∧
    (∀ c : Combination Dice, c.IsComparable → c.HasExtremes) ∧
    (∀ (k : Kind) (definition : String), Family.parse definition = .ok k.family →
      ∀ c : Combination (Measure k), c.IsComparable → c.HasExtremes) ∧
    ∀ c : Combination Value, c.IsComparable → c.HasExtremes :=
  ⟨fun _ h => h.hasExtremes isOrdered_int, fun _ h => h.hasExtremes Rational.isOrdered,
    fun _ h => h.hasExtremes Dice.isOrdered,
    fun _ _ hk _ h => h.hasExtremes (Measure.isOrdered (Family.isChecked_of_parse hk)),
    fun _ h => h.hasExtremes Value.isOrdered⟩

/-- The damage of a spell: dice of six sides of its own and from acid, and eight sides from fire. -/
def spell : Combination Value :=
  ⟨"damage", "spell", some (.mk ⟨"spell", some (.dice ⟨1, 6, 0⟩), none⟩
    [.leaf ⟨"fire", some (.dice ⟨2, 8, 0⟩), none⟩, .leaf ⟨"acid", some (.dice ⟨1, 6, 1⟩), none⟩]),
    [], [], []⟩

/-- Two distances in different sets, contributed where there is no tree. -/
def detour : Combination (Measure (.standard .distance)) :=
  ⟨"way", "map", none, [⟨.mileAndFeet, "road", none⟩, ⟨.negativeMetric, "bridge", none⟩], [], []⟩

/-- The extremes of dice, and of distances of which one is negative. -/
theorem extremes_exact_spell_detour :
    spell.minimum = some (.dice ⟨2, 6, 1⟩) ∧ spell.maximum = some (.dice ⟨2, 8, 0⟩) ∧
      spell.HasExtremes ∧ detour.minimum = some Measure.negativeMetric.simplify ∧
      ∃ m, detour.minimum = some m ∧
        ∀ w ∈ detour.valuesOnly, ∃ o, Quantity.compare m w = some o ∧ o.isLE = true := by
  have hspell : spell.IsComparable := by
    have hvalues : spell.valuesOnly = [.dice ⟨2, 6, 1⟩, .dice ⟨2, 8, 0⟩] := rfl
    have hheld : spell.held = [.dice ⟨1, 6, 0⟩, .dice ⟨2, 8, 0⟩, .dice ⟨1, 6, 1⟩] := rfl
    refine ⟨rfl, ?_, ?_, ?_⟩
    · rw [hvalues]
      exact List.cons_ne_nil _ _
    · rw [hvalues]
      decide
    · rw [hheld]
      simp [Ranked.Valid]
  have hdetour : detour.IsComparable := by
    refine ⟨rfl, List.cons_ne_nil _ _, fun _ _ _ _ => rfl, fun v hv => ?_⟩
    rcases List.mem_pair.mp hv with rfl | rfl
    · exact .inSet rfl rfl
    · exact .inSet rfl rfl
  obtain ⟨-, -, -, hmeasure, hvalue⟩ := extremes_exact
  obtain ⟨v, hv, hminimum, hle⟩ :=
    (hmeasure _ _ (Dimension.parse_definition .distance) detour hdetour).minimum
  refine ⟨rfl, rfl, hvalue spell hspell, by rfl, _, hminimum, hle ?_⟩
  rcases List.mem_pair.mp hv with rfl | rfl
  · decide +kernel
  · decide +kernel

end Combination

end Tabletop
