import Mathlib.Algebra.BigOperators.Group.List.Basic
import Tabletop.Proofs.Sheet.Collected
import Tabletop.Proofs.Value.Amount

/-!
# Totals

What the total of a combination amounts to. The values of a tree are summed on many ways: a group is
formed for every node, the groups of the children are merged into it one after the other, the values
beside the tree are added behind, and the result is simplified.

* **SumsTo** is the invariant of all of them: there is a sum exactly if there are values, and it
  amounts to what the values amount to together;
* it is kept by adding two sums (`SumsTo.add`), by merging groups (`Sums.mergeAll`), and thereby by
  flattening a tree (`sums_flatten`);
* **contents** are the values that a combination sums; **the total and the base sum them exactly**
  (`Combination.sumsTo_total`, `Combination.sumsTo_base`).

As everywhere, the exact results of the steps are listed beside each computation (`flattenSteps`,
`totalSteps`, …).
-/

namespace Tabletop

open Rational

variable {α : Type} [Amount α]

/-! ## Sums -/

/-- There is a sum of some values exactly if there are any, and it amounts to what they amount to
together, if no step is cut. -/
def SumsTo (steps : List ℚ) (vs : List α) : Option α → Prop
  | none => vs = []
  | some s =>
    vs ≠ [] ∧ Amount.Valid s ∧ (Lossless steps → Amount.amount s = (vs.map Amount.amount).sum)

theorem SumsTo.mono {steps more : List ℚ} {vs : List α} {sum : Option α}
    (h : SumsTo steps vs sum) (hmore : Lossless more → Lossless steps) : SumsTo more vs sum := by
  cases sum with
  | none => exact h
  | some s =>
    obtain ⟨hvs, hvalid, hsum⟩ := h
    exact ⟨hvs, hvalid, fun hl => hsum (hmore hl)⟩

/-- There is no sum exactly if there is nothing to sum. -/
theorem SumsTo.eq_none_iff {steps : List ℚ} {vs : List α} {sum : Option α}
    (h : SumsTo steps vs sum) : sum = none ↔ vs = [] := by
  cases sum with
  | none => exact iff_of_true rfl h
  | some s => exact iff_of_false (Option.some_ne_none s) h.1

/-- The order of the values does not matter. -/
theorem SumsTo.perm {steps : List ℚ} {vs ws : List α} {sum : Option α} (h : SumsTo steps vs sum)
    (hperm : ws.Perm vs) : SumsTo steps ws sum := by
  cases sum with
  | none =>
    obtain rfl : vs = [] := h
    exact hperm.eq_nil
  | some s =>
    obtain ⟨hvs, hvalid, hsum⟩ := h
    refine ⟨fun hws => hvs (hws ▸ hperm).symm.eq_nil, hvalid, fun hl => ?_⟩
    rw [hsum hl, (hperm.map _).sum_eq]

theorem sumsTo_single {v : α} (hv : Amount.Valid v) : SumsTo [] [v] (some v) :=
  ⟨List.cons_ne_nil v [], hv, fun _ => by rw [List.map_singleton, List.sum_singleton]⟩

variable [Quantity α]

/-- The sum of two sums is the sum of all values. -/
theorem SumsTo.add (hα : Amount.IsExact α) {steps more : List ℚ} {vs ws : List α} {v w : α}
    (hv : SumsTo steps vs (some v)) (hw : SumsTo more ws (some w)) :
    ∃ s, Quantity.add v w = .ok s ∧
      SumsTo (steps ++ more ++ Amount.addSteps v w) (vs ++ ws) (some s) := by
  obtain ⟨hvs, hvalid, hvsum⟩ := hv
  obtain ⟨-, hvalid', hwsum⟩ := hw
  obtain ⟨s, hadd, hs, hamount⟩ := hα.add hvalid hvalid'
  refine ⟨s, hadd, fun h => hvs (List.append_eq_nil_iff.mp h).1, hs, fun h => ?_⟩
  obtain ⟨h, hlast⟩ := lossless_append.mp h
  obtain ⟨hsteps, hmore⟩ := lossless_append.mp h
  rw [hamount hlast, hvsum hsteps, hwsum hmore, List.map_append, List.sum_append]

/-! ## Groups -/

/-- The groups of some values are at most one group, which holds their sum. -/
def Sums (steps : List ℚ) (vs : List α) (groups : List (Group α)) : Prop :=
  ∃ sum : Option α, groups.map (·.value) = sum.toList ∧ SumsTo steps vs sum

namespace Group

/-- The exact results of the steps of `mergeInto`. -/
def mergeSteps : List (Group α) → Group α → List ℚ
  | [], _ => []
  | held :: rest, g =>
    if Quantity.kindName held.value = Quantity.kindName g.value
        ∧ Quantity.canAdd held.value g.value then
      match Quantity.add held.value g.value with
      | .ok _ => Amount.addSteps held.value g.value
      | .error _ => mergeSteps rest g
    else mergeSteps rest g

/-- The exact results of the steps of merging groups one after the other. -/
def mergeAllSteps : List (Group α) → List (Group α) → List ℚ
  | _, [] => []
  | groups, g :: gs => mergeSteps groups g ++ mergeAllSteps (mergeInto groups g) gs

/-- Where any two values can be added, a group joins the first one. -/
theorem mergeInto_cons (hα : Amount.IsExact α) {held g : Group α} {s : α}
    (h : Quantity.add held.value g.value = .ok s) (rest : List (Group α)) :
    mergeInto (held :: rest) g = ⟨s, held.members ++ g.members⟩ :: rest ∧
      mergeSteps (held :: rest) g = Amount.addSteps held.value g.value := by
  have hjoins := And.intro (hα.one_kind held.value g.value) (hα.canAdd held.value g.value)
  rw [mergeInto, mergeSteps, if_pos hjoins, if_pos hjoins, h]
  exact ⟨rfl, rfl⟩

end Group

/-- **Merging groups** sums the values of both. -/
theorem Sums.mergeAll (hα : Amount.IsExact α) {steps more : List ℚ} {vs ws : List α}
    {groups gs : List (Group α)} (h : Sums steps vs groups) (h' : Sums more ws gs) :
    Sums (steps ++ more ++ Group.mergeAllSteps groups gs) (vs ++ ws)
      (gs.foldl Group.mergeInto groups) := by
  obtain ⟨_ | v, hgroups, hv⟩ := h
  · -- nothing at hand: what comes stays as it is
    obtain rfl := List.map_eq_nil_iff.mp hgroups
    obtain rfl : vs = [] := hv
    obtain ⟨_ | w, hgs, hw⟩ := h'
    · obtain rfl := List.map_eq_nil_iff.mp hgs
      exact ⟨none, rfl, hw⟩
    · obtain ⟨g, rfl, hg⟩ := List.map_eq_singleton_iff.mp hgs
      refine ⟨some w, congrArg (· :: []) hg, hw.mono fun hl => ?_⟩
      exact (lossless_append.mp (lossless_append.mp hl).1).2
  · obtain ⟨held, rfl, rfl⟩ := List.map_eq_singleton_iff.mp hgroups
    obtain ⟨_ | w, hgs, hw⟩ := h'
    · obtain rfl := List.map_eq_nil_iff.mp hgs
      obtain rfl : ws = [] := hw
      rw [List.append_nil]
      refine ⟨some held.value, rfl, hv.mono fun hl => ?_⟩
      exact (lossless_append.mp (lossless_append.mp hl).1).1
    · -- a group on both sides: they become one
      obtain ⟨g, rfl, rfl⟩ := List.map_eq_singleton_iff.mp hgs
      obtain ⟨s, hadd, hs⟩ := hv.add hα hw
      obtain ⟨hmerge, hsteps⟩ := Group.mergeInto_cons hα hadd []
      rw [Group.mergeAllSteps, Group.mergeAllSteps, List.append_nil, hsteps, List.foldl_cons,
        List.foldl_nil, hmerge]
      exact ⟨some s, rfl, hs⟩

/-! ## Trees -/

namespace Node

mutual

/-- The exact results of the steps of `flatten`. -/
def flattenSteps : Node α → List ℚ
  | mk origin children => flattenOntoSteps (ownGroup origin) children

/-- The exact results of the steps of `flattenOnto`. -/
def flattenOntoSteps (groups : List (Group α)) : List (Node α) → List ℚ
  | [] => []
  | n :: ns =>
    n.flattenSteps ++ Group.mergeAllSteps groups n.flatten ++
      flattenOntoSteps (n.flatten.foldl Group.mergeInto groups) ns

end

/-- The defined values among some. -/
def definedOf (vs : List α) : List α := vs.filter Quantity.isDefined

theorem sums_ownGroup {origin : Origin α} (h : ∀ v ∈ origin.value, Amount.Valid v) :
    Sums [] (definedOf origin.value.toList) (ownGroup origin) := by
  obtain ⟨entry, _ | v, description⟩ := origin
  · exact ⟨none, rfl, rfl⟩
  · cases hdef : Quantity.isDefined v with
    | false =>
      refine ⟨none, ?_, ?_⟩
      · simp [ownGroup, hdef]
      · simp [SumsTo, definedOf, hdef]
    | true =>
      have hown : definedOf (some v).toList = [v] := by simp [definedOf, hdef]
      refine ⟨some v, ?_, ?_⟩
      · simp [ownGroup, hdef]
      · rw [hown]
        exact sumsTo_single (h v rfl)

mutual

/-- **Flattening** sums the defined values of the tree. -/
theorem sums_flatten (hα : Amount.IsExact α) :
    ∀ n : Node α, (∀ v ∈ n.values, Amount.Valid v) →
      Sums n.flattenSteps (definedOf n.values) n.flatten
  | mk origin children, h => by
    have hvalues : (mk origin children).values = origin.value.toList ++ valuesAll children :=
      values_eq _
    rw [hvalues] at h ⊢
    have hown : Sums [] (definedOf origin.value.toList) (ownGroup origin) :=
      sums_ownGroup fun v hv => h v (List.mem_append_left _ (Option.mem_toList.mpr hv))
    rw [flatten, flattenSteps, definedOf, List.filter_append]
    exact sums_flattenOnto hα hown children fun v hv => h v (List.mem_append_right _ hv)

/-- Merging nodes in sums their values group by group. -/
theorem sums_flattenOnto (hα : Amount.IsExact α) {steps : List ℚ} {vs : List α}
    {groups : List (Group α)} (hgroups : Sums steps vs groups) :
    ∀ ns : List (Node α), (∀ v ∈ valuesAll ns, Amount.Valid v) →
      Sums (steps ++ flattenOntoSteps groups ns) (vs ++ definedOf (valuesAll ns))
        (flattenOnto groups ns)
  | [], _ => by
    rw [flattenOntoSteps, valuesAll_nil, definedOf, List.filter_nil, List.append_nil,
      List.append_nil]
    exact hgroups
  | n :: ns, h => by
    rw [valuesAll_cons] at h ⊢
    have hn := sums_flatten hα n fun v hv => h v (List.mem_append_left _ hv)
    have hrest := sums_flattenOnto hα (hgroups.mergeAll hα hn) ns
      fun v hv => h v (List.mem_append_right _ hv)
    simp only [definedOf, List.filter_append, flattenOnto, flattenOntoSteps,
      List.append_assoc] at hrest ⊢
    exact hrest

end

end Node

/-! ## Combinations -/

namespace Combination

open Node

/-- The exact results of the steps of adding values to a first one. -/
def foldSteps : α → List α → List ℚ
  | _, [] => []
  | v, w :: ws =>
    Amount.addSteps v w ++
      match Quantity.add v w with
      | .ok s => foldSteps s ws
      | .error _ => []

/-- The exact results of the steps of `sum`. -/
def sumSteps : List α → List ℚ
  | [] => []
  | v :: vs => foldSteps v vs

/-- The exact results of the steps of simplifying a sum. -/
def finishSteps (values : List α) : List ℚ :=
  match sum values with
  | .ok (some s) => Amount.simplifySteps s
  | _ => []

/-- Adding values one after the other sums them. -/
theorem sumsTo_foldlM (hα : Amount.IsExact α) {ws : List α} (hws : ∀ w ∈ ws, Amount.Valid w) :
    ∀ {steps : List ℚ} {vs : List α} {v : α}, SumsTo steps vs (some v) →
      ∃ s, ws.foldlM Quantity.add v = .ok s ∧
        SumsTo (steps ++ foldSteps v ws) (vs ++ ws) (some s) := by
  induction ws with
  | nil =>
    intro steps vs v h
    refine ⟨v, rfl, ?_⟩
    rw [foldSteps, List.append_nil, List.append_nil]
    exact h
  | cons w ws ih =>
    intro steps vs v h
    obtain ⟨s, hadd, hs⟩ := h.add hα (sumsTo_single (hws w List.mem_cons_self))
    obtain ⟨t, hfold, ht⟩ := ih (fun u hu => hws u (List.mem_cons_of_mem w hu)) hs
    refine ⟨t, ?_, ?_⟩
    · rw [List.foldlM_cons, hadd]
      exact hfold
    · simp only [foldSteps, hadd]
      simpa only [List.append_nil, List.append_assoc, List.singleton_append] using ht

/-- Summing goes on from a sum that is there already. -/
theorem sumsTo_sum (hα : Amount.IsExact α) {steps : List ℚ} {vs ws : List α} {first : Option α}
    (h : SumsTo steps vs first) (hws : ∀ w ∈ ws, Amount.Valid w) :
    ∃ t, sum (first.toList ++ ws) = .ok t ∧
      SumsTo (steps ++ sumSteps (first.toList ++ ws)) (vs ++ ws) t := by
  cases first with
  | some v =>
    obtain ⟨s, hfold, hs⟩ := sumsTo_foldlM hα hws h
    refine ⟨some s, ?_, hs⟩
    rw [Option.toList_some, List.singleton_append, sum, hfold]
    rfl
  | none =>
    -- the values beside the tree are summed on their own
    obtain rfl : vs = [] := h
    cases ws with
    | nil => exact ⟨none, rfl, rfl⟩
    | cons w ws =>
      obtain ⟨s, hfold, hs⟩ := sumsTo_foldlM hα
        (fun u hu => hws u (List.mem_cons_of_mem w hu)) (sumsTo_single (hws w List.mem_cons_self))
      refine ⟨some s, ?_, hs.mono fun hl => (lossless_append.mp hl).2⟩
      rw [Option.toList_none, List.nil_append, sum, hfold]
      rfl

/-- No value is dropped for being a number. -/
theorem valueGroups_eq (hα : Amount.IsExact α) (c : Combination α) (groups : List (Group α)) :
    c.valueGroups groups = groups := by
  unfold valueGroups dropNumber
  split
  · rfl
  · split
    · rw [hα.number?_eq_none]
      rfl
    · rfl

/-- **Finishing** the sum of the groups and the values beside them keeps what it amounts to. -/
theorem sumsTo_finish (hα : Amount.IsExact α) {c : Combination α} (hc : c.expressions = [])
    (hvalues : ∀ v ∈ c.values, Amount.Valid v.value) {steps : List ℚ} {vs : List α}
    {groups : List (Group α)} (h : Sums steps vs groups) {values : List α}
    (hall : values = (c.valueGroups groups).map (·.value) ++ c.values.map (·.value)) :
    ∃ t, (sum values).map c.finish = .ok t ∧
      SumsTo (steps ++ sumSteps values ++ finishSteps values) (vs ++ c.values.map (·.value)) t := by
  obtain ⟨first, hgroups, hfirst⟩ := h
  have hside : ∀ w ∈ c.values.map (·.value), Amount.Valid w := by
    intro w hw
    obtain ⟨v, hv, rfl⟩ := List.mem_map.mp hw
    exact hvalues v hv
  obtain ⟨t, hsum, ht⟩ := sumsTo_sum hα hfirst hside
  rw [valueGroups_eq hα, hgroups] at hall
  rw [hall, hsum, finishSteps, hsum]
  refine ⟨c.finish t, rfl, ?_⟩
  have hfinish : c.finish t = t.map Quantity.simplified := by simp [finish, hc]
  rw [hfinish]
  cases t with
  | none => exact ht
  | some s =>
    obtain ⟨hne, hvalid, hamount⟩ := ht
    obtain ⟨hvalid', hsimplified⟩ := hα.simplified hvalid
    refine ⟨hne, hvalid', fun hl => ?_⟩
    obtain ⟨hl, hsimplify⟩ := lossless_append.mp hl
    rw [hsimplified hsimplify, hamount hl]

/-- The exact results of the steps of `total`. -/
def totalSteps (c : Combination α) : List ℚ :=
  (c.root.map flattenSteps).getD [] ++ sumSteps c.valuesOnly ++ finishSteps c.valuesOnly

/-- The values without that of the root. -/
def baseValues (c : Combination α) : List α :=
  (c.valueGroups ((c.root.map flattenBelow).getD [])).map (·.value) ++ c.values.map (·.value)

/-- The exact results of the steps of `base`. -/
def baseSteps (c : Combination α) : List ℚ :=
  (c.root.map fun n => flattenOntoSteps [] n.children).getD [] ++ sumSteps c.baseValues ++
    finishSteps c.baseValues

/-- **The total** sums the defined values of the tree and the values beside it. -/
theorem sumsTo_total (hα : Amount.IsExact α) {c : Combination α} (hc : c.expressions = [])
    (hroot : ∀ v ∈ valuesAll c.root.toList, Amount.Valid v)
    (hvalues : ∀ v ∈ c.values, Amount.Valid v.value) :
    ∃ t, c.total = .ok t ∧
      SumsTo c.totalSteps
        (definedOf (valuesAll c.root.toList) ++ c.values.map (·.value)) t := by
  have htree : Sums ((c.root.map flattenSteps).getD []) (definedOf (valuesAll c.root.toList))
      c.treeGroups := by
    unfold treeGroups
    cases hr : c.root with
    | none => exact ⟨none, rfl, rfl⟩
    | some n =>
      rw [hr, Option.toList_some, valuesAll_cons, valuesAll_nil, List.append_nil] at hroot
      rw [Option.toList_some, valuesAll_cons, valuesAll_nil, List.append_nil]
      exact sums_flatten hα n hroot
  exact sumsTo_finish hα hc hvalues htree rfl

/-- **The base** sums the defined values below the root and the values beside the tree. -/
theorem sumsTo_base (hα : Amount.IsExact α) {c : Combination α} (hc : c.expressions = [])
    (hroot : ∀ v ∈ valuesAll c.root.toList, Amount.Valid v)
    (hvalues : ∀ v ∈ c.values, Amount.Valid v.value) :
    ∃ t, c.base = .ok t ∧
      SumsTo c.baseSteps
        (definedOf c.valuesBelow ++ c.values.map (·.value)) t := by
  have htree : Sums ((c.root.map fun n => flattenOntoSteps [] n.children).getD [])
      (definedOf c.valuesBelow) ((c.root.map flattenBelow).getD []) := by
    unfold valuesBelow
    cases hr : c.root with
    | none => exact ⟨none, rfl, rfl⟩
    | some n =>
      rw [hr, Option.toList_some, valuesAll_cons, valuesAll_nil, List.append_nil,
        values_eq] at hroot
      have hnothing : Sums [] ([] : List α) [] := ⟨none, rfl, rfl⟩
      exact sums_flattenOnto hα hnothing n.children
        fun v hv => hroot v (List.mem_append_right _ hv)
  exact sumsTo_finish hα hc hvalues htree rfl

end Combination

end Tabletop
