import Tabletop.Measure.Definition
import Tabletop.Measure.Standard

/-!
# Checked families

Units, sets and families are made by functions that check them, and nothing else makes them.
**IsChecked** says so of a set and of a family; all that is known of their ratios comes from there:

* the numbers of every ratio are positive (`UnitSet.IsChecked.multiplier_pos`, …);
* a checked set has a base unit, whose ratio is one to one (`UnitSet.IsChecked.exists_base`).

**A family that was read is checked** (`Family.isChecked_of_parse`), and so are the standard
families, which are what their definitions read as (`Dimension.parse_definition`).
-/

namespace Tabletop

/-! ## What is known of a checked set -/

/-- The set passed the checks for sets, and its units passed those for units. -/
structure UnitSet.IsChecked (s : UnitSet) : Prop where
  /-- the set is what its parts make -/
  made : make s.name s.multiplier s.divisor s.units = .ok s
  /-- so is every unit -/
  units_made : ∀ u ∈ s.units,
    MeasureUnit.make u.name u.plural u.multiplier u.divisor u.aliases = .ok u

/-- All sets of the family are checked; a family without sets is. -/
def Family.IsChecked (f : Family) : Prop := ∀ s ∈ f.sets, s.IsChecked

/-- Inversion of `make` for units: a unit with positive numbers and these parts. -/
theorem MeasureUnit.make_eq_ok {name plural : String} {m d : Int} {aliases : List String}
    {u : MeasureUnit} (h : make name plural m d aliases = .ok u) :
    0 < m ∧ 0 < d ∧ u = ⟨name, plural, m, d, aliases⟩ := by
  unfold make at h
  split at h
  · cases h
  · rename_i hpos
    cases h
    exact ⟨by omega, by omega, rfl⟩

/-- Inversion of `make` for sets: positive numbers, one base unit, no spelling twice. -/
theorem UnitSet.make_eq_ok {name : String} {m d : Int} {units : List MeasureUnit} {s : UnitSet}
    (h : make name m d units = .ok s) :
    0 < m ∧ 0 < d ∧ units.countP MeasureUnit.isBase = 1 ∧
      repeated? [] (units.flatMap MeasureUnit.spellings) = none ∧ s = ⟨name, m, d, units⟩ := by
  unfold make at h
  split at h
  · cases h
  · rename_i hpos
    split at h
    · cases h
    · split at h
      · cases h
      · rename_i hbase
        split at h
        · cases h
        · rename_i hnames
          cases h
          exact ⟨by omega, by omega, by omega, hnames, rfl⟩

namespace UnitSet.IsChecked

variable {s : UnitSet}

theorem multiplier_pos (hs : s.IsChecked) : 0 < s.multiplier := (make_eq_ok hs.made).1

theorem divisor_pos (hs : s.IsChecked) : 0 < s.divisor := (make_eq_ok hs.made).2.1

/-- The units of a checked set have proper ratios. -/
theorem units_pos (hs : s.IsChecked) : ∀ u ∈ s.units, 0 < u.multiplier ∧ 0 < u.divisor := by
  intro u hu
  obtain ⟨hm, hd, -⟩ := MeasureUnit.make_eq_ok (hs.units_made u hu)
  exact ⟨hm, hd⟩

/-- A checked set has a base unit. -/
theorem exists_base (hs : s.IsChecked) : ∃ u ∈ s.units, u.isBase = true := by
  obtain ⟨-, -, hcount, -, -⟩ := make_eq_ok hs.made
  exact List.countP_pos_iff.mp (by omega)

/-- A checked set has a unit: its base. -/
theorem units_ne_nil (hs : s.IsChecked) : s.units ≠ [] := by
  obtain ⟨u, hu, -⟩ := hs.exists_base
  exact List.ne_nil_of_mem hu

end UnitSet.IsChecked

/-! ## A family that was read is checked -/

/-- What `mapM` collects without failure are results of the function. -/
theorem exists_of_mem_mapM {ε α β : Type} {f : α → Except ε β} :
    ∀ {xs : List α} {ys : List β}, xs.mapM f = .ok ys → ∀ y ∈ ys, ∃ x ∈ xs, f x = .ok y := by
  intro xs
  induction xs with
  | nil =>
    intro ys h y hy
    cases h
    cases hy
  | cons x xs ih =>
    intro ys h y hy
    rw [List.mapM_cons] at h
    rcases hx : f x with e | z <;> rw [hx] at h
    · cases h
    · rcases hxs : xs.mapM f with e | zs <;> rw [hxs] at h
      · cases h
      · cases h
        rcases List.mem_cons.mp hy with rfl | hy
        · exact ⟨x, List.mem_cons_self, hx⟩
        · obtain ⟨x', hx', hf⟩ := ih hxs y hy
          exact ⟨x', List.mem_cons_of_mem x hx', hf⟩

namespace Family

/-- Inversion of `Except.bind`. -/
theorem bind_eq_ok {ε α β : Type} {m : Except ε α} {f : α → Except ε β} {b : β}
    (h : m >>= f = .ok b) : ∃ a, m = .ok a ∧ f a = .ok b := by
  rcases hm : m with e | a <;> rw [hm] at h
  · cases h
  · exact ⟨a, rfl, h⟩

/-- A unit that was read was made. -/
theorem made_of_parseUnit {cs : List Char} {u : MeasureUnit} (h : parseUnit cs = .ok u) :
    MeasureUnit.make u.name u.plural u.multiplier u.divisor u.aliases = .ok u := by
  unfold parseUnit at h
  split at h
  · obtain ⟨⟨m, d⟩, -, h⟩ := bind_eq_ok h
    simp only at h
    split at h
    · cases h
    · obtain ⟨-, -, hu⟩ := MeasureUnit.make_eq_ok h
      rw [hu]
      rw [hu] at h
      exact h
  · cases h

theorem isChecked_of_parseSet {cs : List Char} {s : UnitSet} (h : parseSet cs = .ok s) :
    s.IsChecked := by
  unfold parseSet at h
  split at h
  · cases h
  · split at h
    · cases h
    · obtain ⟨⟨m, d⟩, -, h⟩ := bind_eq_ok h
      obtain ⟨units, hunits, h⟩ := bind_eq_ok h
      obtain ⟨-, -, -, -, hs⟩ := UnitSet.make_eq_ok h
      have hmade : UnitSet.make s.name s.multiplier s.divisor s.units = .ok s := by
        rw [hs]
        rw [hs] at h
        exact h
      refine ⟨hmade, fun u hu => ?_⟩
      obtain ⟨part, -, hpart⟩ := exists_of_mem_mapM hunits u (by rw [hs] at hu; exact hu)
      exact made_of_parseUnit hpart

/-- A text is read by its characters. For a literal these are taken from the literal itself
(`String.toList_ofList`), because the kernel is slow to decode a text. -/
theorem parse_eq_ok_of_chars {definition : String} {cs : List Char} {f : Family}
    (hchars : definition.toList = cs)
    (hread : (do
      let sets ← ((cs.splitOn '.').filter fun part => !Text.isBlankText part).mapM parseSet
      make sets) = .ok f) : parse definition = .ok f := by
  rw [parse, hchars]
  exact hread

/-- **A family that was read is checked.** -/
theorem isChecked_of_parse {definition : String} {f : Family} (h : parse definition = .ok f) :
    f.IsChecked := by
  obtain ⟨sets, hsets, h⟩ := bind_eq_ok h
  unfold make at h
  split at h
  · cases h
  · cases h
    intro s hs
    obtain ⟨part, -, hpart⟩ := exists_of_mem_mapM hsets s hs
    exact isChecked_of_parseSet hpart

end Family

/-! ## The standard families -/

namespace Dimension

/-- The text that declares the units of a dimension. -/
def definition : Dimension → String
  | .distance =>
    "1/1 : Feet = 5280/1 : mi : mile|miles, 1/1 : ft : foot|feet, 1/12 : in : inch|inches. " ++
      "2/5 : Metric = 1000/1 : km : kilometer|kilometers, 1/1 : m : meter|meters, " ++
      "1/100 : cm : centimeter|centimeters"
  | .area =>
    "1/1 : Feet = 9/1 : sq yd : square yard|square yards, " ++
      "1/1 : sq ft : square foot|square feet, 1/144 : sq in : square inch|square inches. " ++
      "1/25 : Metric = 1/1 : sq m : square meter|square meters, " ++
      "1/100 : sq dm : square decimeter|square decimeters, " ++
      "1/10000 : sq cm : square centimeter|square centimeters"
  | .duration =>
    "1/1 : Seconds = 86400/1 : day|days, 3600/1 : hour|hours : hr|hrs, " ++
      "60/1 : minute|minutes : min|mins, 1/1 : second|seconds : sec|secs. " ++
      "1/6 : Rounds = 1/1 : round|rounds : rd|rds. " ++
      "1/6 : Actions = 1/1 : round|rounds : rd|rds, 1/10 : standard action|standard actions, " ++
      "1/100 : move action|move actions, 1/1000 : swift action|swift actions, " ++
      "1/10000 : free action|free actions"
  | .volume =>
    "1/1 : Feet = 1/1 : cu ft : cubic foot|cubic feet, " ++
      "1/1728 : cu in : cubic inch|cubic inches. " ++
      "1/25 : Metric = 1/1 : cu m : cubic meter|cubic meters, " ++
      "1/1000 : cu dm : cubic decimeter|cubic decimeters. " ++
      "15/2 : Gallons = 1/1 : gallon|gallons, 1/4 : quart|quarts, 1/8 : pint|pints, " ++
      "1/16 : cup|cups, 1/128 : ounce|ounces : oz. " ++
      "30/1 : Liters = 1/1 : l : liter|liters, 1/10 : dl : deciliter|deciliters, " ++
      "1/100 : cl : centiliter|centiliters"
  | .weight =>
    "1/1 : Pounds = 1/1 : lb|lbs : pounds|pound, 1/16 : oz : ounces|ounce. " ++
      "1/2 : Metric = 1000/1 : t : tons|ton, 1/1 : kg : kilo|kilos|kilograms|kilogram, " ++
      "1/1000 : g : grams|gram. 2500/1 : Carat = 1/1 : ct : carats|carat"
  | .money =>
    "1/1 : D&D = 10/1 : pp : platinum|platinums|platinum piece|platinum pieces, " ++
      "1/1 : gp : gold|golds|gold piece|gold pieces, " ++
      "1/10 : sp : silver|silvers|silver piece|silver pieces, " ++
      "1/100 : cp : copper|coppers|copper piece|copper pieces."

/-- The characters of a text in several parts, of which the last is a literal. -/
theorem toList_append_ofList {text : String} {cs ds : List Char} (h : text.toList = cs) :
    (text ++ String.ofList ds).toList = cs ++ ds := by
  rw [String.toList_append, h, String.toList_ofList]

set_option maxRecDepth 4096 in
/-- **The standard families** are what their definitions read as. -/
theorem parse_definition (d : Dimension) : Family.parse d.definition = .ok d.family := by
  cases d with
  | distance =>
    apply Family.parse_eq_ok_of_chars
    · iterate 2 apply toList_append_ofList
      exact String.toList_ofList
    · rfl
  | area =>
    apply Family.parse_eq_ok_of_chars
    · iterate 4 apply toList_append_ofList
      exact String.toList_ofList
    · rfl
  | duration =>
    apply Family.parse_eq_ok_of_chars
    · iterate 5 apply toList_append_ofList
      exact String.toList_ofList
    · rfl
  | volume =>
    apply Family.parse_eq_ok_of_chars
    · iterate 7 apply toList_append_ofList
      exact String.toList_ofList
    · rfl
  | weight =>
    apply Family.parse_eq_ok_of_chars
    · iterate 2 apply toList_append_ofList
      exact String.toList_ofList
    · rfl
  | money =>
    apply Family.parse_eq_ok_of_chars
    · iterate 3 apply toList_append_ofList
      exact String.toList_ofList
    · rfl

/-- **The standard families are checked.** -/
theorem isChecked_family (d : Dimension) : d.family.IsChecked :=
  Family.isChecked_of_parse d.parse_definition

end Dimension

end Tabletop
