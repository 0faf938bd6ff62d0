import Tabletop.Proofs.Value.Sum
import Tabletop.Sheet.Combination

/-!
# The groups of a tree

Flattening a tree of values of all kinds leaves several groups. They are a partition of the tree:

* **Partition** says that every origin is in one group, once, that a group is of the kind of its
  members, and that no group can be added to another one;
* the groups stay one when a group joins them (`Partition.mergeInto`). The sum that replaces a group
  is kept apart from the others because adding makes no value more addable (`Value.canAdd_of_add`);
* so **flattening partitions the origins that hold a defined value** (`Node.partition_flatten`);
* **the total fails exactly if two groups are left** (`Combination.total_eq_error_iff`).
-/

namespace Tabletop

/-- Whether an origin has a value that is defined. -/
def Origin.holds (origin : Origin Value) : Bool := origin.value.any Value.isDefined

/-! ## Merging -/

namespace Group

/-- The values of two groups cannot be added. -/
def Apart (g h : Group Value) : Prop := ¬ g.value.canAdd h.value = true

/-- A group has members, and it is of the kind of all of them. -/
structure Uniform (g : Group Value) : Prop where
  nonempty : g.members ≠ []
  kind : ∀ origin ∈ g.members, origin.value.map Value.kind = some g.value.kind

theorem Apart.symm {g h : Group Value} (hgh : Apart g h) : Apart h g := by
  rwa [Apart, Value.canAdd_comm]

/-- Two groups that are apart are of different kinds, or dice that roll with different sides. -/
theorem Apart.dice {g h : Group Value} (hgh : Apart g h) :
    g.value.kind ≠ h.value.kind ∨ ∃ d e, g.value = .dice d ∧ h.value = .dice e ∧
      d.sides ≠ e.sides ∧ 0 < d.count ∧ 0 < e.count := by
  by_cases hkind : g.value.kind = h.value.kind
  · exact .inr (Value.exists_dice_of_not_canAdd hkind hgh)
  · exact .inl hkind

/-- What is apart from a group stays apart from it when it is added to. -/
theorem Apart.join {held g other : Group Value} {sum : Value} (h : Apart held other)
    (hsum : held.value.add g.value = .ok sum) :
    Apart ⟨sum, held.members ++ g.members⟩ other :=
  fun hadd => h (Value.canAdd_of_add hsum hadd)

/-- Two groups of one kind join to a group of that kind. -/
theorem Uniform.join {held g : Group Value} {sum : Value} (hheld : held.Uniform) (hg : g.Uniform)
    (hsum : held.value.add g.value = .ok sum) :
    Uniform ⟨sum, held.members ++ g.members⟩ := by
  have hsumKind : sum.kind = held.value.kind := (Value.add_cases hsum).1
  have hgKind : held.value.kind = g.value.kind :=
    (Value.canAdd_iff.mp (Value.exists_add_iff.mp ⟨sum, hsum⟩)).1
  refine ⟨fun hnil => hg.nonempty (List.append_eq_nil_iff.mp hnil).2, ?_⟩
  simp only [hsumKind]
  exact List.forall_mem_append.mpr ⟨hheld.kind, hgKind ▸ hg.kind⟩

/-- All that merging a group can do: it comes last if it is apart from all groups at hand, and else
it joins the first one that it is not apart from. -/
theorem mergeInto_cases (groups : List (Group Value)) (g : Group Value) :
    (mergeInto groups g = groups ++ [g] ∧ ∀ held ∈ groups, Apart held g) ∨
      ∃ before held after sum, groups = before ++ held :: after ∧
        (∀ other ∈ before, Apart other g) ∧ held.value.add g.value = .ok sum ∧
        mergeInto groups g = before ++ ⟨sum, held.members ++ g.members⟩ :: after := by
  induction groups with
  | nil => exact .inl ⟨rfl, nofun⟩
  | cons held rest ih =>
    by_cases hadd : held.value.canAdd g.value = true
    · obtain ⟨sum, hsum⟩ := Value.exists_add_iff.mpr hadd
      have hname : held.value.kind.name = g.value.kind.name :=
        congrArg ValueKind.name (Value.canAdd_iff.mp hadd).1
      refine .inr ⟨[], held, rest, sum, rfl, nofun, hsum, ?_⟩
      rw [mergeInto, if_pos ⟨hname, hadd⟩]
      simp only [Quantity.add, hsum]
      rfl
    · have hskip : mergeInto (held :: rest) g = held :: mergeInto rest g := by
        rw [mergeInto, if_neg fun h => hadd h.2]
      rw [hskip]
      obtain ⟨hlast, hapart⟩ | ⟨before, other, after, sum, rfl, hapart, hsum, hjoin⟩ := ih
      · exact .inl ⟨congrArg _ hlast, List.forall_mem_cons.mpr ⟨hadd, hapart⟩⟩
      · exact .inr ⟨held :: before, other, after, sum, rfl,
          List.forall_mem_cons.mpr ⟨hadd, hapart⟩, hsum, congrArg _ hjoin⟩

end Group

/-! ## Partitions -/

/-- The groups that some origins fall into. -/
structure Partition (origins : List (Origin Value)) (groups : List (Group Value)) : Prop where
  /-- Every origin is in one group, once, and nothing else is. -/
  perm : (groups.flatMap (·.members)).Perm origins
  uniform : ∀ g ∈ groups, g.Uniform
  apart : groups.Pairwise Group.Apart

namespace Partition

open Tabletop.Group

variable {origins more : List (Origin Value)} {groups gs : List (Group Value)}

theorem nil : Partition [] [] := ⟨.refl _, nofun, .nil⟩

/-- **A group that joins** a partition leaves a partition. -/
theorem mergeInto (h : Partition origins groups) {g : Group Value} (hg : g.Uniform) :
    Partition (origins ++ g.members) (mergeInto groups g) := by
  obtain ⟨hlast, hapart⟩ | ⟨before, held, after, sum, rfl, -, hsum, hjoin⟩ :=
    mergeInto_cases groups g
  · rw [hlast]
    refine ⟨?_, List.forall_mem_append.mpr ⟨h.uniform, List.forall_mem_singleton.mpr hg⟩, ?_⟩
    · rw [List.flatMap_append, List.flatMap_singleton]
      exact h.perm.append_right _
    · refine List.pairwise_append.mpr ⟨h.apart, List.pairwise_singleton _ g, ?_⟩
      exact fun held hheld => List.forall_mem_singleton.mpr (hapart held hheld)
  · rw [hjoin]
    obtain ⟨hbefore, hrest⟩ := List.forall_mem_append.mp h.uniform
    obtain ⟨hheld, hafter⟩ := List.forall_mem_cons.mp hrest
    obtain ⟨hbeforeApart, hrestApart, hacross⟩ := List.pairwise_append.mp h.apart
    obtain ⟨hheldApart, hafterApart⟩ := List.pairwise_cons.mp hrestApart
    refine ⟨?_, ?_, ?_⟩
    · refine .trans ?_ (h.perm.append_right _)
      simp only [List.flatMap_append, List.flatMap_cons, List.append_assoc]
      exact (List.perm_append_comm.append_left _).append_left _
    · exact List.forall_mem_append.mpr
        ⟨hbefore, List.forall_mem_cons.mpr ⟨hheld.join hg hsum, hafter⟩⟩
    · refine List.pairwise_append.mpr ⟨hbeforeApart, List.pairwise_cons.mpr ⟨?_, hafterApart⟩, ?_⟩
      · exact fun other hother => (hheldApart other hother).join hsum
      · intro other hother
        obtain ⟨hotherHeld, hotherAfter⟩ := List.forall_mem_cons.mp (hacross other hother)
        exact List.forall_mem_cons.mpr ⟨(hotherHeld.symm.join hsum).symm, hotherAfter⟩

/-- **Groups that join** a partition one after the other leave a partition. -/
theorem mergeAll (h : Partition origins groups) (h' : Partition more gs) :
    Partition (origins ++ more) (gs.foldl Group.mergeInto groups) := by
  have hjoin : Partition (origins ++ gs.flatMap (·.members)) (gs.foldl Group.mergeInto groups) := by
    have huniform := h'.uniform
    clear h'
    induction gs generalizing origins groups with
    | nil => rwa [List.flatMap_nil, List.append_nil]
    | cons g gs ih =>
      obtain ⟨hg, huniform⟩ := List.forall_mem_cons.mp huniform
      rw [List.flatMap_cons, ← List.append_assoc]
      exact ih (h.mergeInto hg) huniform
  exact ⟨hjoin.perm.trans (h'.perm.append_left _), hjoin.uniform, hjoin.apart⟩

end Partition

/-! ## Trees -/

namespace Node

theorem partition_ownGroup (origin : Origin Value) :
    Partition ([origin].filter Origin.holds) (ownGroup origin) := by
  obtain ⟨entry, _ | v, description⟩ := origin
  · exact Partition.nil
  · cases hdef : v.isDefined with
    | false => simpa [Origin.holds, ownGroup, Quantity.isDefined, hdef] using Partition.nil
    | true =>
      have hown : ownGroup ⟨entry, some v, description⟩ = [⟨v, [⟨entry, some v, description⟩]⟩] :=
        if_pos hdef
      rw [hown]
      refine ⟨?_, List.forall_mem_singleton.mpr ?_, List.pairwise_singleton _ _⟩
      · simp [Origin.holds, hdef]
      · exact ⟨List.cons_ne_nil _ _, List.forall_mem_singleton.mpr rfl⟩

mutual

/-- **Flattening** partitions the origins of a tree that hold a defined value. -/
theorem partition_flatten : ∀ n : Node Value, Partition (n.origins.filter Origin.holds) n.flatten
  | mk origin children => by
    have h := partition_flattenOnto (partition_ownGroup origin) children
    rwa [← List.filter_append] at h

/-- **Merging nodes in** keeps the groups a partition, with the values of the nodes added. -/
theorem partition_flattenOnto {origins : List (Origin Value)} {groups : List (Group Value)}
    (h : Partition origins groups) : ∀ ns : List (Node Value),
      Partition (origins ++ (originsAll ns).filter Origin.holds) (flattenOnto groups ns)
  | [] => by
    rw [originsAll, List.filter_nil, List.append_nil]
    exact h
  | n :: ns => by
    have hrest := partition_flattenOnto (h.mergeAll (partition_flatten n)) ns
    rw [originsAll, List.filter_append, ← List.append_assoc]
    exact hrest

end

-- A fixed number joins the first dice, whichever they are, and keeps the second ones apart.
example :
    (mk (α := Value) ⟨"bow", none, none⟩ [leaf ⟨"aim", some (.dice (.fixed 3)), none⟩,
      leaf ⟨"arrow", some (.dice ⟨2, 6, 0⟩), none⟩,
      leaf ⟨"flame", some (.dice ⟨1, 8, 0⟩), none⟩]).flatten.map (·.value) =
        [.dice ⟨2, 6, 3⟩, .dice ⟨1, 8, 0⟩] := by
  rfl

end Node

/-! ## The total -/

namespace Combination

/-- The sum of values that cannot be added fails if there are two. -/
theorem sum_eq_error_iff {values : List Value}
    (h : values.Pairwise fun v w => ¬ v.canAdd w = true) :
    (∃ failure, sum values = .error failure) ↔ 2 ≤ values.length := by
  match values, h with
  | [], _ => simp [sum]
  | [v], _ => simp [sum, Except.map, pure, Except.pure]
  | v :: w :: rest, h =>
    have hvw : ¬ v.canAdd w = true := (List.pairwise_cons.mp h).1 w List.mem_cons_self
    obtain ⟨failure, hfailure⟩ : ∃ failure, v.add w = .error failure := by
      cases hadd : v.add w with
      | error failure => exact ⟨failure, rfl⟩
      | ok s => exact absurd (Value.exists_add_iff.mp ⟨s, hadd⟩) hvw
    refine iff_of_true ⟨failure, ?_⟩ (Nat.le_add_left 2 rest.length)
    rw [sum, List.foldlM_cons]
    simp only [Quantity.add, hfailure]
    rfl

theorem map_eq_error_iff {ε α β : Type} {f : α → β} {x : Except ε α} {e : ε} :
    x.map f = .error e ↔ x = .error e := by
  cases x <;> simp [Except.map]

/-- The groups of a tree partition its values. -/
theorem partition_treeGroups (c : Combination Value) :
    Partition ((c.root.map Node.origins).getD [] |>.filter Origin.holds) c.treeGroups := by
  unfold treeGroups
  cases c.root with
  | none => exact Partition.nil
  | some n => exact Node.partition_flatten n

theorem valueGroups_sublist {α : Type} [Quantity α] (c : Combination α) (groups : List (Group α)) :
    (c.valueGroups groups).Sublist groups := by
  unfold valueGroups dropNumber
  split
  · exact .refl _
  · split
    · split
      · exact List.dropLast_sublist _
      · exact .refl _
    · exact .refl _

/-- **The total fails** exactly if two groups count as values. -/
theorem total_eq_error_iff {c : Combination Value} (hvalues : c.values = []) :
    (∃ failure, c.total = .error failure) ↔ 2 ≤ (c.valueGroups c.treeGroups).length := by
  have hapart := c.partition_treeGroups.apart.sublist (c.valueGroups_sublist _)
  have honly : c.valuesOnly = (c.valueGroups c.treeGroups).map (·.value) := by
    rw [valuesOnly, hvalues, List.map_nil, List.append_nil]
  simp only [total, map_eq_error_iff]
  rw [honly, sum_eq_error_iff (List.pairwise_map.mpr hapart), List.length_map]

end Combination

/-! ## The whole statement -/

end Tabletop
