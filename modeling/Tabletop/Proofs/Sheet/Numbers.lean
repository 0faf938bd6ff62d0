import Tabletop.Proofs.Modifier.Accumulated
import Tabletop.Proofs.Sheet.Partition

/-!
# Numbers among modifiers

A plain number that comes last among the groups of a tree is taken over by the modifiers as soon as
there are any. It is dropped from the values in one place, and its members are given to the
modifier, one by one, in another. Is every number counted once?

* a partition has **at most one group of numbers**, which holds all of them
  (`Partition.numbersOf_perm`); **AreExact** says that such a group is their sum, and flattening keeps
  that while no sum is cut (`Node.areExact_flatten`). **Node.numberSums** lists the sums that it
  makes;
* **takenOver** are the members of a number that comes last. Each of them raises the range by what
  it is (`range_foldl_takeOver`);
* hence **every number is counted exactly once** (`numbers_counted_once`).
-/

namespace Tabletop

/-! ## Numbers -/

namespace Value

theorem kind_eq_number_iff {v : Value} : v.kind = .number ↔ ∃ n, v = .number n := by
  cases v <;> simp [kind]

theorem number?_eq_some_iff {v : Value} {n : Int} : v.number? = some n ↔ v = .number n := by
  cases v <;> simp [number?]

theorem number?_eq_none_iff {v : Value} : v.number? = none ↔ v.kind ≠ .number := by
  cases v <;> simp [number?, kind]

/-- A sum that is a number is that of two numbers, cut to the range. -/
theorem add_eq_number {v w : Value} {s : Int} (h : v.add w = .ok (.number s)) :
    ∃ m n, v = .number m ∧ w = .number n ∧ s = clamp (m + n) := by
  have hv : v.kind = .number := (add_cases h).1.symm
  have hw : w.kind = .number := (canAdd_iff.mp (exists_add_iff.mp ⟨_, h⟩)).1 ▸ hv
  obtain ⟨m, rfl⟩ := kind_eq_number_iff.mp hv
  obtain ⟨n, rfl⟩ := kind_eq_number_iff.mp hw
  cases h
  exact ⟨m, n, rfl, rfl, rfl⟩

end Value

/-- The plain number that an origin holds. -/
def Origin.number? (origin : Origin Value) : Option Int := origin.value.bind Value.number?

/-- The plain numbers that some origins hold, in order. -/
def numbersOf (origins : List (Origin Value)) : List Int := origins.filterMap Origin.number?

theorem numbersOf_append (origins more : List (Origin Value)) :
    numbersOf (origins ++ more) = numbersOf origins ++ numbersOf more :=
  List.filterMap_append

/-- An origin that holds a number holds a defined value. -/
theorem Origin.holds_of_number? {origin : Origin Value} (h : origin.number?.isSome = true) :
    origin.holds = true := by
  obtain ⟨entry, _ | v, description⟩ := origin
  · cases h
  · cases v with
    | number n => rfl
    | _ => cases h

theorem numbersOf_holds (origins : List (Origin Value)) :
    numbersOf (origins.filter Origin.holds) = numbersOf origins := by
  rw [numbersOf, List.filterMap_filter]
  refine congrArg (List.filterMap · origins) (funext fun origin => ?_)
  split
  · rfl
  · rename_i hholds
    exact (Option.not_isSome_iff_eq_none.mp (mt Origin.holds_of_number? hholds)).symm

namespace Group

variable {g : Group Value}

/-- A group whose value is no number has no numbers among its members. -/
theorem Uniform.number?_eq_none (h : g.Uniform) (hg : g.value.number? = none) :
    ∀ origin ∈ g.members, origin.number? = none := by
  intro origin horigin
  obtain ⟨v, hv, hkind⟩ := Option.map_eq_some_iff.mp (h.kind origin horigin)
  rw [Origin.number?, hv]
  exact Value.number?_eq_none_iff.mpr (hkind ▸ Value.number?_eq_none_iff.mp hg)

/-- Groups that are no numbers hold none. -/
theorem numbersOf_flatMap_eq_nil {groups : List (Group Value)} (h : ∀ g ∈ groups, g.Uniform)
    (hnone : ∀ g ∈ groups, g.value.number? = none) :
    numbersOf (groups.flatMap (·.members)) = [] := by
  refine List.filterMap_eq_nil_iff.mpr fun origin horigin => ?_
  obtain ⟨g, hg, horigin⟩ := List.mem_flatMap.mp horigin
  exact (h g hg).number?_eq_none (hnone g hg) origin horigin

/-- What is apart from a number is no number. -/
theorem Apart.number?_eq_none {h : Group Value} (hgh : Apart g h) {n : Int}
    (hn : g.value = .number n) : h.value.number? = none := by
  refine Value.number?_eq_none_iff.mpr fun hkind => hgh ?_
  obtain ⟨m, hm⟩ := Value.kind_eq_number_iff.mp hkind
  rw [hn, hm]
  rfl

/-- Every number among some groups is the sum of the numbers that its members hold. -/
def AreExact (groups : List (Group Value)) : Prop :=
  ∀ g ∈ groups, ∀ n, g.value = .number n → n = (numbersOf g.members).sum

end Group

namespace Partition

open Tabletop.Group

variable {origins more : List (Origin Value)} {groups gs : List (Group Value)}

/-- **One group holds all numbers.** -/
theorem numbersOf_perm (h : Partition origins groups) {before after : List (Group Value)}
    {g : Group Value} (hgroups : groups = before ++ g :: after) {n : Int}
    (hn : g.value = .number n) : (numbersOf g.members).Perm (numbersOf origins) ∧
      ∀ other ∈ before ++ after, other.value.number? = none := by
  subst hgroups
  obtain ⟨-, hrest, hacross⟩ := List.pairwise_append.mp h.apart
  have hothers : ∀ other ∈ before ++ after, other.value.number? = none := by
    intro other hother
    rcases List.mem_append.mp hother with hother | hother
    · exact (hacross other hother g List.mem_cons_self).symm.number?_eq_none hn
    · exact ((List.pairwise_cons.mp hrest).1 other hother).number?_eq_none hn
  have huniform : ∀ other ∈ before ++ after, other.Uniform := fun other hother =>
    h.uniform other (List.mem_append.mpr
      ((List.mem_append.mp hother).imp_right (List.mem_cons_of_mem g)))
  refine ⟨?_, hothers⟩
  obtain ⟨hbefore, hafter⟩ := List.forall_mem_append.mp hothers
  obtain ⟨hbefore', hafter'⟩ := List.forall_mem_append.mp huniform
  have hperm := h.perm.filterMap Origin.number?
  rw [List.flatMap_append, List.flatMap_cons, ← numbersOf, numbersOf_append, numbersOf_append,
    numbersOf_flatMap_eq_nil hbefore' hbefore, numbersOf_flatMap_eq_nil hafter' hafter,
    List.append_nil, List.nil_append] at hperm
  exact hperm

/-- A number that joins is added to those at hand, if the sum is not cut. -/
theorem areExact_mergeInto (h : Partition origins groups) (hexact : AreExact groups)
    {g : Group Value} (hg : AreExact [g])
    (hfits : ∀ n, g.value = .number n → Fits ((numbersOf origins).sum + n)) :
    AreExact (Group.mergeInto groups g) := by
  obtain ⟨hlast, -⟩ | ⟨before, held, after, sum, hgroups, -, hsum, hjoin⟩ :=
    mergeInto_cases groups g
  · rw [hlast]
    exact List.forall_mem_append.mpr ⟨hexact, hg⟩
  · rw [hjoin]
    subst hgroups
    obtain ⟨hbefore, hrest⟩ := List.forall_mem_append.mp hexact
    obtain ⟨hheld, hafter⟩ := List.forall_mem_cons.mp hrest
    refine List.forall_mem_append.mpr ⟨hbefore, List.forall_mem_cons.mpr ⟨?_, hafter⟩⟩
    rintro s rfl
    obtain ⟨m, n, hm, hn, rfl⟩ := Value.add_eq_number hsum
    -- the group held is the one with all numbers so far, so the bound speaks of its sum
    have hall : m = (numbersOf origins).sum :=
      (hheld m hm).trans (h.numbersOf_perm rfl hm).1.sum_eq
    rw [clamp_eq_self (hall ▸ hfits n hn), numbersOf_append, List.sum_append, ← hheld m hm,
      ← hg g List.mem_cons_self n hn]

/-- Groups that join one after the other bring one number at most: nothing else is added to it. -/
theorem areExact_foldl (h : Partition origins groups) (hexact : AreExact groups)
    (huniform : ∀ g ∈ gs, g.Uniform) (hapart : gs.Pairwise Apart) (hexact' : AreExact gs)
    (hfits : Fits ((numbersOf origins).sum + (numbersOf (gs.flatMap (·.members))).sum)) :
    AreExact (gs.foldl Group.mergeInto groups) := by
  induction gs generalizing origins groups with
  | nil => exact hexact
  | cons g gs ih =>
    obtain ⟨hg, huniform⟩ := List.forall_mem_cons.mp huniform
    obtain ⟨hgApart, hapart⟩ := List.pairwise_cons.mp hapart
    obtain ⟨hgExact, hexact'⟩ := List.forall_mem_cons.mp hexact'
    rw [List.flatMap_cons, numbersOf_append, List.sum_append, ← Int.add_assoc] at hfits
    have hstep : AreExact (Group.mergeInto groups g) := by
      refine h.areExact_mergeInto hexact (List.forall_mem_singleton.mpr hgExact) fun n hn => ?_
      -- the groups that come after a number are none
      have hrest : numbersOf (gs.flatMap (·.members)) = [] :=
        numbersOf_flatMap_eq_nil huniform fun other hother =>
          (hgApart other hother).number?_eq_none hn
      rwa [hrest, List.sum_nil, Int.add_zero, ← hgExact n hn] at hfits
    refine ih (h.mergeInto hg) hstep huniform hapart hexact' ?_
    rwa [numbersOf_append, List.sum_append]

/-- **Merging the groups of two partitions** adds their numbers, if the sum is not cut. -/
theorem areExact_mergeAll (h : Partition origins groups) (hexact : AreExact groups)
    (h' : Partition more gs) (hexact' : AreExact gs)
    (hfits : Fits ((numbersOf origins).sum + (numbersOf more).sum)) :
    AreExact (gs.foldl Group.mergeInto groups) := by
  refine h.areExact_foldl hexact h'.uniform h'.apart hexact' ?_
  have hsum : (numbersOf (gs.flatMap (·.members))).sum = (numbersOf more).sum :=
    (h'.perm.filterMap Origin.number?).sum_eq
  rwa [hsum]

end Partition

/-! ## Trees -/

namespace Node

open Tabletop.Group

mutual

/-- The exact sums that flattening makes of the numbers of a tree. -/
def numberSums : Node Value → List Int
  | mk origin children => numberSumsFrom (numbersOf [origin]).sum children

/-- The exact sums that flattening makes of the numbers of some trees, added to those at hand one
tree after the other. -/
def numberSumsFrom (atHand : Int) : List (Node Value) → List Int
  | [] => []
  | n :: ns =>
    let next := atHand + (numbersOf n.origins).sum
    n.numberSums ++ next :: numberSumsFrom next ns

end

theorem areExact_ownGroup (origin : Origin Value) : AreExact (ownGroup origin) := by
  obtain ⟨entry, _ | v, description⟩ := origin
  · exact fun g hg => absurd hg List.not_mem_nil
  · have hown : ownGroup ⟨entry, some v, description⟩ =
      if Quantity.isDefined v then [⟨v, [⟨entry, some v, description⟩]⟩] else [] := rfl
    rw [hown]
    split
    · refine List.forall_mem_singleton.mpr fun n hn => ?_
      obtain rfl : v = .number n := hn
      exact (Int.add_zero n).symm
    · exact fun g hg => absurd hg List.not_mem_nil

mutual

/-- **Flattening** sums the numbers of a tree, if no sum is cut. -/
theorem areExact_flatten :
    ∀ n : Node Value, (∀ s ∈ n.numberSums, Fits s) → AreExact n.flatten
  | mk origin children, hfits => by
    refine areExact_flattenOnto (partition_ownGroup origin) (areExact_ownGroup origin) children ?_
    rwa [numbersOf_holds]

/-- Groups stay exact when the values of further nodes are merged in, as long as the sums fit. -/
theorem areExact_flattenOnto {origins : List (Origin Value)} {groups : List (Group Value)}
    (h : Partition origins groups) (hexact : AreExact groups) : ∀ ns : List (Node Value),
      (∀ s ∈ numberSumsFrom (numbersOf origins).sum ns, Fits s) → AreExact (flattenOnto groups ns)
  | [], _ => hexact
  | n :: ns, hfits => by
    obtain ⟨hn, hrest⟩ := List.forall_mem_append.mp hfits
    obtain ⟨hnext, hrest⟩ := List.forall_mem_cons.mp hrest
    rw [← numbersOf_holds n.origins] at hnext hrest
    have hmerged := h.areExact_mergeAll hexact (partition_flatten n) (areExact_flatten n hn) hnext
    refine areExact_flattenOnto (h.mergeAll (partition_flatten n)) hmerged ns ?_
    rwa [numbersOf_append, List.sum_append]

end

end Node

/-! ## Combinations -/

namespace Combination

open Tabletop.Group

/-- The number with one more plain number as a general modifier, if the origin holds one. -/
def takeOver (number : ModifiedNumber) (origin : Origin Value) : ModifiedNumber :=
  match origin.number? with
  | some n => number.withMerged (.general n) (origin.description.getD origin.entry)
  | none => number

/-- The members of a number that comes last among the groups of the tree. -/
def takenOver (c : Combination Value) : List (Origin Value) :=
  match c.treeGroups.getLast? with
  | some last => if last.value.number?.isSome then last.members else []
  | none => []

/-- **Numbers taken over** raise the range by what they are. -/
theorem range_foldl_takeOver (origins : List (Origin Value)) : ∀ number : ModifiedNumber,
    (origins.foldl takeOver number).minValue = number.minValue + (numbersOf origins).sum ∧
      (origins.foldl takeOver number).maxValue = number.maxValue + (numbersOf origins).sum := by
  induction origins with
  | nil => exact fun number => ⟨(Int.add_zero _).symm, (Int.add_zero _).symm⟩
  | cons origin origins ih =>
    intro number
    obtain ⟨hmin, hmax⟩ := ih (takeOver number origin)
    rw [List.foldl_cons, hmin, hmax]
    cases hnumber : origin.number? with
    | none =>
      have hcons : numbersOf (origin :: origins) = numbersOf origins :=
        List.filterMap_cons_none hnumber
      rw [takeOver, hnumber, hcons]
      exact ⟨rfl, rfl⟩
    | some n =>
      have hcons : numbersOf (origin :: origins) = n :: numbersOf origins :=
        List.filterMap_cons_some hnumber
      obtain ⟨hmin, hmax⟩ :=
        number.range_withMerged_general n (origin.description.getD origin.entry)
      rw [takeOver, hnumber, hcons, hmin, hmax, List.sum_cons, Int.add_assoc, Int.add_assoc]
      exact ⟨rfl, rfl⟩

/-- The modifier takes over the numbers behind the bonuses. -/
theorem modifier_eq (c : Combination Value) :
    c.modifier = c.takenOver.foldl takeOver (foldModifiers c.modifiers) := by
  unfold modifier takenOver
  cases c.treeGroups.getLast? with
  | none => rfl
  | some last =>
    have hnumber : Quantity.number? last.value = last.value.number? := rfl
    simp only [hnumber]
    split <;> rfl

variable {c : Combination Value}

/-- All that modifiers can do: they take over a number at the end, and else nothing. -/
theorem takenOver_cases (hmodifiers : c.modifiers ≠ []) :
    (∃ last n, c.treeGroups.getLast? = some last ∧ last.value = .number n ∧
        c.valueGroups c.treeGroups = c.treeGroups.dropLast ∧
        c.treeGroups = c.valueGroups c.treeGroups ++ [last] ∧ c.takenOver = last.members) ∨
      ((∀ last ∈ c.treeGroups.getLast?, ∀ n, last.value ≠ .number n) ∧
        c.valueGroups c.treeGroups = c.treeGroups ∧ c.takenOver = []) := by
  have hgroups : c.valueGroups c.treeGroups = dropNumber c.treeGroups :=
    if_neg (by simpa using hmodifiers)
  rw [hgroups]
  unfold dropNumber takenOver
  cases hlast : c.treeGroups.getLast? with
  | none => exact .inr ⟨nofun, rfl, rfl⟩
  | some last =>
    have hnumber : Quantity.number? last.value = last.value.number? := rfl
    simp only [hnumber]
    cases hvalue : last.value.number? with
    | some n =>
      refine .inl ⟨last, n, rfl, Value.number?_eq_some_iff.mp hvalue, rfl, ?_, rfl⟩
      exact (List.dropLast_append_getLast? last hlast).symm
    | none =>
      refine .inr ⟨?_, rfl, rfl⟩
      rintro _ ⟨⟩ n hn
      rw [Value.number?_eq_some_iff.mpr hn] at hvalue
      cases hvalue

/-- Every number of the tree is counted once: by the modifier, which takes some over in turn, or by
the values, which sum up the others. -/
structure CountsNumbersOnce (c : Combination Value) : Prop where
  modifier_eq : c.modifier = c.takenOver.foldl takeOver (foldModifiers c.modifiers)
  /-- each origin of the tree that holds a number is in one of the two, once -/
  perm : (((c.valueGroups c.treeGroups).flatMap (·.members) ++ c.takenOver).filter
      (·.number?.isSome)).Perm
    (((c.root.map Node.origins).getD []).filter (·.number?.isSome))
  /-- the numbers are all in the same one -/
  one_place : (∀ g ∈ c.valueGroups c.treeGroups, ∀ origin ∈ g.members, origin.number? = none) ∨
    c.takenOver = []
  exact : AreExact (c.valueGroups c.treeGroups)

theorem areExact_treeGroups (hfits : ∀ root ∈ c.root, ∀ s ∈ root.numberSums, Fits s) :
    AreExact c.treeGroups := by
  unfold treeGroups
  cases hroot : c.root with
  | none => exact fun g hg => absurd hg List.not_mem_nil
  | some root => exact Node.areExact_flatten root (hfits root hroot)

/-- **With modifiers, numbers count once**: as base of the modifier, and not in the total. -/
theorem countsNumbersOnce (hmodifiers : c.modifiers ≠ [])
    (hfits : ∀ root ∈ c.root, ∀ s ∈ root.numberSums, Fits s) : CountsNumbersOnce c := by
  have hpartition := c.partition_treeGroups
  -- what is missing from the values is what the modifier takes over
  have hmembers : c.treeGroups.flatMap (·.members) =
      (c.valueGroups c.treeGroups).flatMap (·.members) ++ c.takenOver := by
    obtain ⟨last, n, -, -, -, hgroups, htaken⟩ | ⟨-, hgroups, htaken⟩ := takenOver_cases hmodifiers
    · conv_lhs => rw [hgroups]
      rw [htaken, List.flatMap_append, List.flatMap_singleton]
    · rw [hgroups, htaken, List.append_nil]
  refine ⟨c.modifier_eq, ?_, ?_, ?_⟩
  · rw [← hmembers]
    refine (hpartition.perm.filter _).trans (.of_eq ?_)
    rw [List.filter_filter]
    refine List.filter_congr fun origin _ => ?_
    rw [Bool.and_eq_left_iff_imp]
    exact Origin.holds_of_number?
  · obtain ⟨last, n, -, hn, -, hgroups, -⟩ | ⟨-, -, htaken⟩ := takenOver_cases hmodifiers
    · refine .inl fun g hg => ?_
      have hnone := (hpartition.numbersOf_perm hgroups hn).2 g (List.mem_append_left _ hg)
      refine (hpartition.uniform g ?_).number?_eq_none hnone
      exact (c.valueGroups_sublist _).subset hg
    · exact .inr htaken
  · exact fun g hg => areExact_treeGroups hfits g ((c.valueGroups_sublist _).subset hg)

/-! ## The whole statement -/

/-- **Numbers next to modifiers are counted exactly once.** With modifiers, a number that comes last
among the groups of the tree is missing from the values and raises the range of the modifier by what
it is; otherwise all groups are values and the modifier is that of the modifiers alone. Either way
every origin of the tree that holds a number is counted in one of the two, once. -/
theorem numbers_counted_once {c : Combination Value} (hmodifiers : c.modifiers ≠ [])
    (hfits : ∀ root ∈ c.root, ∀ s ∈ root.numberSums, Fits s) :
    (∀ last n, c.treeGroups.getLast? = some last → last.value = .number n →
      c.valuesOnly = c.treeGroups.dropLast.map (·.value) ++ c.values.map (·.value) ∧
      c.modifier.minValue = (foldModifiers c.modifiers).minValue + n ∧
      c.modifier.maxValue = (foldModifiers c.modifiers).maxValue + n) ∧
    ((∀ last ∈ c.treeGroups.getLast?, ∀ n, last.value ≠ .number n) →
      c.valuesOnly = c.treeGroups.map (·.value) ++ c.values.map (·.value) ∧
      c.modifier = foldModifiers c.modifiers) ∧
    CountsNumbersOnce c := by
  refine ⟨fun last n hlast hn => ?_, fun hnone => ?_, countsNumbersOnce hmodifiers hfits⟩
  · obtain ⟨last', n', hlast', -, hgroups, hall, htaken⟩ | ⟨hnone, -, -⟩ :=
      takenOver_cases hmodifiers
    · obtain rfl := Option.some.inj (hlast'.symm.trans hlast)
      have hmem : last' ∈ c.treeGroups := List.mem_of_getLast? hlast
      obtain ⟨hmin, hmax⟩ := range_foldl_takeOver c.takenOver (foldModifiers c.modifiers)
      rw [valuesOnly, hgroups, c.modifier_eq, hmin, hmax, htaken,
        ← areExact_treeGroups hfits last' hmem n hn]
      exact ⟨rfl, rfl, rfl⟩
    · exact absurd hn (hnone last hlast n)
  · obtain ⟨last, n, hlast, hn, -⟩ | ⟨-, hgroups, htaken⟩ := takenOver_cases hmodifiers
    · exact absurd hn (hnone last hlast n)
    · rw [valuesOnly, hgroups, c.modifier_eq, htaken]
      exact ⟨rfl, rfl⟩

/-- A fighter's armor class: ten, one more from a base, and a modifier from another. -/
def fighter : Entry Value :=
  .mk "fighter" [("armor class", .plain (.number 10))]
    [.mk "elf" [("armor class", .modifier (.single 2 .dodge))] [],
      .mk "dwarf" [("armor class", .plain (.number 1))] []]

/-- The fighter joins a party that was given a number before there was a tree. -/
def armoredParty : Combination Value :=
  ((empty "armor class" "party").addValue ⟨.number 5, "shield", none⟩).add
    (collect "armor class" fighter) "leader"

/-- The fighter with dice, which come after the number. -/
def trappedFighter : Combination Value :=
  (collect "armor class" fighter).addValue ⟨.dice ⟨1, 6, 0⟩, "trap", none⟩

/-- The fighter's numbers are taken over by the modifier, the party's own one is not; with dice at
the end they stay values. -/
theorem numbers_counted_once_fighter :
    armoredParty.modifiers ≠ [] ∧ trappedFighter.modifiers ≠ [] ∧
    (∀ root ∈ armoredParty.root, ∀ s ∈ root.numberSums, Fits s) ∧
    (∀ root ∈ trappedFighter.root, ∀ s ∈ root.numberSums, Fits s) ∧
    (armoredParty.valuesOnly = [.number 5] ∧ armoredParty.modifier.minValue = 2 + 11 ∧
      armoredParty.modifier.maxValue = 2 + 11 ∧ CountsNumbersOnce armoredParty) ∧
    trappedFighter.valuesOnly = [.number 11, .dice ⟨1, 6, 0⟩] ∧
    trappedFighter.modifier = foldModifiers trappedFighter.modifiers ∧
    CountsNumbersOnce trappedFighter := by
  have hparty : armoredParty.modifiers ≠ [] := List.cons_ne_nil _ _
  have htrap : trappedFighter.modifiers ≠ [] := List.cons_ne_nil _ _
  have hpartyFits : ∀ root ∈ armoredParty.root, ∀ s ∈ root.numberSums, Fits s := by
    rintro root ⟨⟩
    decide +kernel
  have htrapFits : ∀ root ∈ trappedFighter.root, ∀ s ∈ root.numberSums, Fits s := by
    rintro root ⟨⟩
    decide +kernel
  obtain ⟨hnumber, -, hcounts⟩ := numbers_counted_once hparty hpartyFits
  obtain ⟨-, hothers, hcounts'⟩ := numbers_counted_once htrap htrapFits
  obtain ⟨hvalues, hmin, hmax⟩ := hnumber _ 11 rfl rfl
  obtain ⟨hvalues', hmodifier⟩ := hothers (by rintro last ⟨⟩; nofun)
  exact ⟨hparty, htrap, hpartyFits, htrapFits, ⟨hvalues, hmin, hmax, hcounts⟩, hvalues', hmodifier,
    hcounts'⟩

end Combination

end Tabletop
