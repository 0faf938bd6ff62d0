import Tabletop.Proofs.Sheet.Gathered
import Tabletop.Proofs.Sheet.History
import Tabletop.Value.Basic

/-!
# Undefined contributions

A value that is not defined is added to a combination. Is it skipped?

* below the root of a tree it is: it founds no group and joins none
  (`Node.flattenOnto_undefined`), so all that is computed from the groups stays as it was
  (`sameResults_addValue`);
* without a tree it is kept beside, where nothing asks whether a value is defined: it becomes one of
  the values (`valuesOnly_addValue`).

So **an undefined value is skipped exactly if there is a tree** (`undefined_skipped_iff`): one that
the combination started with (`Source.GivesTree`), or that a merge brought since
(`Call.bringsTree`).
-/

namespace Tabletop

variable {α : Type}

/-! ## Groups -/

namespace Node

variable [Quantity α]

/-- Nodes are merged in one after the other. -/
theorem flattenOnto_append (ns more : List (Node α)) :
    ∀ groups : List (Group α),
      flattenOnto groups (ns ++ more) = flattenOnto (flattenOnto groups ns) more := by
  induction ns with
  | nil => exact fun groups => rfl
  | cons n ns ih => exact fun groups => ih (n.flatten.foldl Group.mergeInto groups)

/-- More children are merged into the groups of the tree. -/
theorem flatten_addChildren (n : Node α) (more : List (Node α)) :
    (n.addChildren more).flatten = flattenOnto n.flatten more := by
  obtain ⟨origin, children⟩ := n
  exact flattenOnto_append children more (ownGroup origin)

theorem flattenBelow_addChildren (n : Node α) (more : List (Node α)) :
    (n.addChildren more).flattenBelow = flattenOnto n.flattenBelow more := by
  obtain ⟨origin, children⟩ := n
  exact flattenOnto_append children more []

/-- A child whose value is not defined changes no group. -/
theorem flattenOnto_undefined {v : α} (hv : Quantity.isDefined v = false) (entry : String)
    (description : Option String) (groups : List (Group α)) :
    flattenOnto groups [leaf ⟨entry, some v, description⟩] = groups := by
  have hleaf : (leaf ⟨entry, some v, description⟩).flatten = [] :=
    if_neg (Bool.eq_false_iff.mp hv)
  rw [flattenOnto, hleaf]
  rfl

end Node

namespace Combination

/-! ## One more value -/

section AddValue

variable [Quantity α]

/-- Two combinations have the same values and make the same of them. -/
structure SameResults (c d : Combination α) : Prop where
  valuesOnly_eq : c.valuesOnly = d.valuesOnly
  hasValue_eq : c.hasValue = d.hasValue
  total_eq : c.total = d.total
  base_eq : c.base = d.base
  minimum_eq : c.minimum = d.minimum
  maximum_eq : c.maximum = d.maximum

/-- Results depend on the groups of the tree and below its root, and on what is beside the tree. -/
theorem sameResults_of_groups {c d : Combination α} (htree : c.treeGroups = d.treeGroups)
    (hbelow : c.root.map Node.flattenBelow = d.root.map Node.flattenBelow)
    (hvalues : c.values = d.values) (hmodifiers : c.modifiers = d.modifiers)
    (hexpressions : c.expressions = d.expressions) : SameResults c d := by
  have honly : c.valuesOnly = d.valuesOnly := by
    unfold valuesOnly valueGroups
    rw [htree, hvalues, hmodifiers]
  have hfinish : c.finish = d.finish := by
    funext value
    unfold finish
    rw [hexpressions]
  refine ⟨honly, ?_, ?_, ?_, ?_, ?_⟩
  · rw [hasValue, hasValue, honly]
  · rw [total, total, honly, hfinish]
  · unfold base valueGroups
    rw [hbelow, hvalues, hmodifiers, hfinish]
  · rw [minimum, minimum, honly, hfinish]
  · rw [maximum, maximum, honly, hfinish]

variable {v : Contribution α}

/-- **With a tree** an undefined value is skipped. -/
theorem sameResults_addValue (hv : Quantity.isDefined v.value = false) {c : Combination α}
    {root : Node α} (hroot : c.root = some root) : SameResults c (c.addValue v) := by
  have hadd : c.addValue v =
      { c with
        root := some (root.addChildren [.leaf ⟨v.group, some v.value, some v.description⟩]) } := by
    rw [addValue, hroot]
  rw [hadd]
  refine sameResults_of_groups ?_ ?_ rfl rfl rfl
  · simp only [treeGroups, hroot, Option.map_some, Option.getD_some, Node.flatten_addChildren,
      Node.flattenOnto_undefined hv]
  · simp only [hroot, Option.map_some, Node.flattenBelow_addChildren,
      Node.flattenOnto_undefined hv]

/-- **Without a tree** every value counts, defined or not. -/
theorem valuesOnly_addValue {c : Combination α} (hroot : c.root = none) (v : Contribution α) :
    (c.addValue v).valuesOnly = c.valuesOnly ++ [v.value] ∧ (c.addValue v).hasValue = true := by
  have honly : (c.addValue v).valuesOnly = c.valuesOnly ++ [v.value] := by
    rw [addValue, hroot]
    simp only [valuesOnly, treeGroups, valueGroups, hroot, List.map_append, List.map_cons,
      List.map_nil, List.append_assoc]
  refine ⟨honly, ?_⟩
  rw [hasValue, honly]
  simp

-- It may even make the total fail.
example :
    ((empty (α := Value) "damage" "trap").addValue ⟨.dice ⟨1, 6, 0⟩, "blade", none⟩).total =
      .ok (some (.dice ⟨1, 6, 0⟩)) ∧
    (((empty (α := Value) "damage" "trap").addValue ⟨.dice ⟨1, 6, 0⟩, "blade", none⟩).addValue
      ⟨.rational .undefined, "gift", none⟩).total = .error (.incompatibleKinds "dice" "rational") :=
  ⟨rfl, rfl⟩

/-- **An undefined value is skipped** exactly where there is a tree. -/
theorem sameResults_addValue_iff (hv : Quantity.isDefined v.value = false) (c : Combination α) :
    SameResults c (c.addValue v) ↔ c.root.isSome = true := by
  cases hroot : c.root with
  | some root => exact iff_of_true (sameResults_addValue hv hroot) rfl
  | none =>
    -- the values differ in length
    refine iff_of_false (fun h => ?_) Bool.false_ne_true
    have honly := h.valuesOnly_eq.symm
    rw [(valuesOnly_addValue hroot v).1, List.append_right_eq_self] at honly
    exact List.cons_ne_nil _ _ honly

end AddValue

/-! ## Trees -/

/-- Whether a call brings a tree with it. -/
def Call.bringsTree : Call α → Bool
  | merge other _ => other.root.isSome
  | _ => false

/-- A call leaves a tree if there was one, or if it brings one. -/
theorem isSome_root_make (c : Combination α) (call : Call α) :
    (call.make c).root.isSome = (c.root.isSome || call.bringsTree) := by
  obtain ⟨name, entry, root, values, modifiers, expressions⟩ := c
  cases call with
  | value v => cases root <;> rfl
  | modifier m => exact (Bool.or_false _).symm
  | expression e => exact (Bool.or_false _).symm
  | merge other description =>
    simp only [Call.make, Call.bringsTree, add]
    cases root <;> cases other.root <;> rfl

/-- **A history** leaves a tree if it starts with one or one of its calls brings one. -/
theorem isSome_root_run (calls : List (Call α)) : ∀ c : Combination α,
    (run c calls).root.isSome = (c.root.isSome || calls.any Call.bringsTree) := by
  induction calls with
  | nil => exact fun c => (Bool.or_false _).symm
  | cons call calls ih =>
    intro c
    have hstep : run c (call :: calls) = run (call.make c) calls := rfl
    rw [hstep, ih, isSome_root_make, List.any_cons, Bool.or_assoc]

end Combination

/-- A combination starts with a tree: that of an entry with one in its lineage that stores no
modifier under the name. -/
def Source.GivesTree (name : String) : Source α → Prop
  | nothing _ => False
  | entry e => ∃ d ∈ e.lineage, d.storesModifier name = false

/-- An aggregation starts with a tree if its source gives one. -/
theorem Source.isSome_root_start (name : String) (source : Source α) :
    (source.start name).root.isSome = true ↔ source.GivesTree name := by
  cases source with
  | nothing key => exact iff_of_false Bool.false_ne_true id
  | entry e =>
    have hroot : ((Source.entry e).start name).root = (e.collect name).1 := rfl
    rw [hroot, ← Option.isSome_map (f := Node.origin), Entry.origin_collect, Option.isSome_map,
      Entry.heir?, List.find?_isSome]
    exact exists_congr fun d => by rw [Bool.not_eq_true']

/-! ## The whole statement -/

namespace Combination

variable [Quantity α]

/-- **An undefined value is skipped exactly if there is a tree**, whatever was done before: then all
results stay as they are. Otherwise it becomes one of the values, and there is one from then on. -/
theorem undefined_skipped_iff (name : String) (source : Source α) (calls : List (Call α))
    {v : Contribution α} (hv : Quantity.isDefined v.value = false) :
    (SameResults (run (source.start name) calls) ((run (source.start name) calls).addValue v) ↔
      source.GivesTree name ∨ ∃ call ∈ calls, call.bringsTree = true) ∧
    ((run (source.start name) calls).root = none →
      ((run (source.start name) calls).addValue v).valuesOnly =
        (run (source.start name) calls).valuesOnly ++ [v.value] ∧
      ((run (source.start name) calls).addValue v).hasValue = true) := by
  refine ⟨?_, fun hroot => valuesOnly_addValue hroot v⟩
  rw [sameResults_addValue_iff hv, isSome_root_run, Bool.or_eq_true, Source.isSome_root_start,
    List.any_eq_true]

/-- It is skipped among shares that were collected from entries, and counts in a bundle without a
tree. -/
theorem undefined_skipped_shares :
    let calls : List (Call Rational) := [.modifier ⟨.general 1, "feat", none⟩,
      .value ⟨.signed 0 1 2, "gift", none⟩]
    let c := run (shares.start "share") calls
    let bundle : Combination Rational := run ((Source.nothing "bundle").start "share") []
    let v : Contribution Rational := ⟨.undefined, "gift", none⟩
    Quantity.isDefined v.value = false ∧ SameResults c (c.addValue v) ∧
      bundle.root = none ∧ (bundle.addValue v).hasValue = true := by
  intro calls c bundle v
  have hv : Quantity.isDefined v.value = false := rfl
  have htree : shares.GivesTree "share" := ⟨_, List.mem_cons_self, rfl⟩
  refine ⟨hv, (undefined_skipped_iff "share" shares calls hv).1.mpr (.inl htree), rfl, ?_⟩
  exact ((undefined_skipped_iff "share" (.nothing "bundle") [] hv).2 rfl).2

/-- **An undefined value counts** where there is no tree: a pack without values has one from then
on, and its total is no longer missing. -/
theorem undefined_counts_emptyPack :
    let c : Combination Rational := empty "share" "pack"
    let v : Contribution Rational := ⟨.undefined, "gift", none⟩
    Quantity.isDefined v.value = false ∧
      c.valuesOnly = [] ∧ (c.addValue v).valuesOnly = [.undefined] ∧
      c.hasValue = false ∧ (c.addValue v).hasValue = true ∧
      c.total = .ok none ∧ (c.addValue v).total = .ok (some .undefined) ∧
      c.base = .ok none ∧ (c.addValue v).base = .ok (some .undefined) ∧
      c.minimum = none ∧ (c.addValue v).minimum = some .undefined ∧
      c.maximum = none ∧ (c.addValue v).maximum = some .undefined :=
  ⟨rfl, rfl, rfl, rfl, rfl, rfl, rfl, rfl, rfl, rfl, rfl, rfl, rfl⟩

end Combination

end Tabletop
