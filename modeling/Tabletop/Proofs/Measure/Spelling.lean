import Tabletop.Measure.Standard
import Tabletop.Proofs.Measure.Read
import Tabletop.Proofs.Rational.Notation

/-!
# Units told by their spellings

A unit that is written stands behind an amount and in front of the next one. What is read there?

* behind a **spelling** comes nothing or a number, and so any reader of units finds there what it
  finds in the spelling alone (`UnitSet.agrees_readUnit`, `Family.agrees_readUnit`);
* in a **legible** family a spelling is read as a whole or not at all, and by its own set as its own
  unit. There a pair of an amount and a spelling is read back (`Legible.readPair_eq`), unless the
  amount is negative or the set that is asked does not know the spelling;
* the **standard families** are legible (`Dimension.legible`), and the first set that knows a
  spelling is the one it is from, but for the rounds that also have actions
  (`Dimension.readUnit_first`).
-/

namespace Tabletop

open Text Reader

/-! ## Spellings and what follows them -/

/-- A character that rationals are written with. -/
def isNumeric (c : Char) : Bool := c.isDigit || c == '-' || c == '+' || c == '/'

/-- A spelling that does not run into the numbers around it. -/
@[mk_iff] structure IsSpelling (cs : List Char) : Prop where
  ne_nil : cs ≠ []
  head_visible : cs.head?.any isBlank = false
  last_ne_space : cs.getLast? ≠ some ' '
  no_number : cs.any isNumeric = false

instance (cs : List Char) : Decidable (IsSpelling cs) :=
  decidable_of_iff _ (isSpelling_iff cs).symm

/-- A spelling has nothing that could belong to a number. -/
theorem IsSpelling.not_numeric {cs : List Char} (h : IsSpelling cs) {c : Char} (hc : c ∈ cs) :
    c.isDigit = false ∧ c ≠ '-' ∧ c ≠ '+' ∧ c ≠ '/' := by
  have hnumeric := List.any_eq_false.mp h.no_number c hc
  simpa [isNumeric, and_assoc] using hnumeric

/-- A spelling begins with a character that is neither blank nor part of a number. -/
theorem IsSpelling.exists_cons {cs : List Char} (h : IsSpelling cs) :
    ∃ c ds, cs = c :: ds ∧ isBlank c = false ∧ c.isDigit = false ∧ c ≠ '-' ∧ c ≠ '+' ∧ c ≠ '/' := by
  cases cs with
  | nil => exact absurd rfl h.ne_nil
  | cons c ds => exact ⟨c, ds, rfl, h.head_visible, h.not_numeric List.mem_cons_self⟩

theorem IsSpelling.trimStart_append {cs : List Char} (h : IsSpelling cs) (rest : List Char) :
    trimStart (cs ++ rest) = cs ++ rest := by
  obtain ⟨c, ds, rfl, hblank, -⟩ := h.exists_cons
  exact trimStart_cons hblank _

/-- What stands behind a spelling: nothing, or a blank and a number. -/
inductive NumberBehind : List Char → Prop
  | nil : NumberBehind []
  | number {c : Char} (h : c.isDigit = true ∨ c = '-') (cs : List Char) :
    NumberBehind (' ' :: c :: cs)

variable {w rest cs : List Char}

/-- A spelling that stands at the start stands there without the number. -/
theorem IsSpelling.prefix_append_iff {n : List Char} (hn : IsSpelling n)
    (hrest : NumberBehind rest) :
    n <+: w ++ rest ↔ n <+: w := by
  refine ⟨fun h => ?_, fun h => h.trans (List.prefix_append w rest)⟩
  rcases Nat.le_total n.length w.length with hle | hle
  · exact List.prefix_of_prefix_length_le h (List.prefix_append w rest) hle
  · -- a longer one would take in the blank, and then end there or go on into the number
    obtain ⟨t, rfl⟩ := List.prefix_of_prefix_length_le (List.prefix_append w rest) h hle
    rw [List.prefix_append_right_inj] at h
    cases hrest with
    | nil =>
      exact ⟨[], by rw [List.prefix_nil.mp h, List.append_nil, List.append_nil]⟩
    | @number c hc cs =>
      cases t with
      | nil => exact ⟨[], by rw [List.append_nil, List.append_nil]⟩
      | cons d t =>
        obtain ⟨rfl, ht⟩ := List.cons_prefix_cons.mp h
        cases t with
        | nil => exact absurd (by simp) hn.last_ne_space
        | cons e t =>
          obtain ⟨rfl, -⟩ := List.cons_prefix_cons.mp ht
          obtain ⟨hdigit, hminus, -⟩ := hn.not_numeric (c := e) (by simp)
          rcases hc with hc | rfl
          · rw [hdigit] at hc
            cases hc
          · exact absurd rfl hminus

/-- Whether a word begins with a spelling does not depend on a number behind the word. -/
theorem startsWord_append {n : String} (hn : IsSpelling n.toList) (hrest : NumberBehind rest) :
    startsWord n (w ++ rest) = startsWord n w := by
  unfold startsWord
  by_cases h : n.toList <+: w
  · obtain ⟨t, rfl⟩ := h
    have hnext : (t ++ rest).head?.any isLetter = t.head?.any isLetter := by
      cases t with
      | nil =>
        cases hrest with
        | nil => rfl
        | number hc cs => rfl
      | cons c t => rfl
    rw [List.append_assoc, List.drop_left, List.drop_left, hnext,
      List.isPrefixOf_iff_prefix.mpr (List.prefix_append _ _),
      List.isPrefixOf_iff_prefix.mpr (List.prefix_append _ _)]
  · have hlonger := mt (hn.prefix_append_iff hrest).mp h
    rw [Bool.eq_false_iff.mpr (mt List.isPrefixOf_iff_prefix.mp h),
      Bool.eq_false_iff.mpr (mt List.isPrefixOf_iff_prefix.mp hlonger), Bool.and_false,
      Bool.false_and, Bool.false_and]

/-! ## Readers that do not care what follows -/

/-- The reader finds in a text what it finds in the word in front, and leaves what it leaves of the
word with the rest. -/
def Reader.Agrees {α : Type} (r : Reader α) (w rest cs : List Char) : Prop :=
  r cs = match r w with
    | (some a, left) => (some a, left ++ rest)
    | (none, _) => (none, cs)

/-- **The longest word** is looked for in the word in front. -/
theorem Reader.agrees_longest {words : List String} (hwords : ∀ n ∈ words, IsSpelling n.toList)
    (hrest : NumberBehind rest) (hw : trimStart w = w) (hcs : trimStart cs = w ++ rest) :
    (longest words).Agrees w rest cs := by
  have hfilter : words.filter (startsWord · (w ++ rest)) = words.filter (startsWord · w) :=
    List.filter_congr fun n hn => startsWord_append (hwords n hn) hrest
  unfold Agrees longest
  simp only [hcs, hw, hfilter]
  cases hfound : longestOf (words.filter (startsWord · w)) with
  | none => rfl
  | some n =>
    have hstarts := (List.mem_filter.mp (longestOf_mem hfound)).2
    simp only [startsWord, Bool.and_eq_true, List.isPrefixOf_iff_prefix] at hstarts
    simp only [List.drop_append_of_le_length hstarts.1.2.length_le]

variable {s : UnitSet} {f : Family}

/-- The units of a set are looked for in the word ahead, and not in the number behind it. -/
theorem UnitSet.agrees_readUnit (hs : ∀ u ∈ s.units, ∀ n ∈ u.names, IsSpelling n.toList)
    (hrest : NumberBehind rest) (hw : trimStart w = w) (hcs : trimStart cs = w ++ rest) :
    Reader.Agrees s.readUnit w rest cs := by
  have hwords : ∀ n ∈ s.units.flatMap MeasureUnit.names, IsSpelling n.toList := by
    intro n hn
    obtain ⟨u, hu, hn⟩ := List.mem_flatMap.mp hn
    exact hs u hu n hn
  have hlongest := agrees_longest hwords hrest hw hcs
  unfold Reader.Agrees UnitSet.readUnit
  rw [hlongest]
  rcases longest (s.units.flatMap MeasureUnit.names) w with ⟨_ | n, left⟩
  · rfl
  · dsimp only
    cases s.findUnit n <;> rfl

namespace Family

theorem agrees_readUnitFrom {sets : List UnitSet}
    (hsets : ∀ s ∈ sets, ∀ u ∈ s.units, ∀ n ∈ u.names, IsSpelling n.toList)
    (hrest : NumberBehind rest) (hw : trimStart w = w) (hcs : trimStart cs = w ++ rest)
    (index : ℕ) : Reader.Agrees (readUnitFrom index sets) w rest cs := by
  induction sets generalizing index with
  | nil => rfl
  | cons s sets ih =>
    have hs := UnitSet.agrees_readUnit (hsets s List.mem_cons_self) hrest hw hcs
    have hlater := ih (fun t ht => hsets t (List.mem_cons_of_mem s ht)) (index + 1)
    unfold Reader.Agrees at *
    rw [readUnitFrom, readUnitFrom, hs]
    rcases s.readUnit w with ⟨_ | unit, left⟩
    · exact hlater
    · rfl

/-- **A unit is told by its spelling**, whatever number follows. -/
theorem agrees_readUnit (hf : ∀ s ∈ f.sets, ∀ u ∈ s.units, ∀ n ∈ u.names, IsSpelling n.toList)
    (hrest : NumberBehind rest) (hw : trimStart w = w) (hcs : trimStart cs = w ++ rest)
    (set : Option ℕ) : Reader.Agrees (f.readUnit set) w rest cs := by
  cases set with
  | none => exact agrees_readUnitFrom hf hrest hw hcs 0
  | some index =>
    refine agrees_readUnitFrom (fun s hs => hf s ?_) hrest hw hcs index
    exact List.mem_of_getElem? (Option.mem_toList.mp hs)

/-! ## Legible families -/

/-- The spelling is one of a unit of the family. -/
def Spells (f : Family) (name : String) : Prop := ∃ s ∈ f.sets, ∃ u ∈ s.units, name ∈ u.names

/-- A family whose units can be told from their spellings. -/
@[mk_iff] structure Legible (f : Family) : Prop where
  isSpelling : ∀ s ∈ f.sets, ∀ u ∈ s.units, ∀ name ∈ u.names, IsSpelling name.toList
  /-- no set takes a part of a spelling -/
  whole : ∀ t ∈ f.sets, ∀ s ∈ f.sets, ∀ u ∈ s.units, ∀ name ∈ u.names,
    (t.readUnit name.toList).1.isSome → (t.readUnit name.toList).2 = []
  /-- a set knows the spellings of its units -/
  own : ∀ s ∈ f.sets, ∀ unit (h : unit < s.units.length), ∀ name ∈ s.units[unit].names,
    (s.readUnit name.toList).1 = some unit

instance (f : Family) : Decidable f.Legible := decidable_of_iff _ (legible_iff f).symm

namespace Legible

/-- The names of a legible family are spellings. -/
theorem isSpelling_of_spells (hf : f.Legible) {name : String} (hname : f.Spells name) :
    IsSpelling name.toList := by
  obtain ⟨s, hs, u, hu, hname⟩ := hname
  exact hf.isSpelling s hs u hu name hname

/-- Whatever set is asked, a spelling is taken as a whole. -/
theorem whole_readUnit (hf : f.Legible) {name : String} (hname : f.Spells name) {set : Option ℕ}
    {index unit : ℕ} {left : List Char}
    (h : f.readUnit set name.toList = (some (index, unit), left)) : left = [] := by
  obtain ⟨-, t, ht, hread⟩ := readUnit_eq_some h
  obtain ⟨s, hs, u, hu, hname⟩ := hname
  have hwhole := hf.whole t (List.mem_of_getElem? ht) s hs u hu name hname
  rw [hread] at hwhole
  exact hwhole rfl

/-- Its own set takes a spelling. -/
theorem readUnit_own (hf : f.Legible) {index unit : ℕ} {s : UnitSet} {u : MeasureUnit}
    (hs : f.sets[index]? = some s) (hu : s.units[unit]? = some u) {name : String}
    (hname : name ∈ u.names) :
    (f.readUnit (some index) name.toList).1 = some (index, unit) := by
  obtain ⟨hlt, rfl⟩ := List.getElem?_eq_some_iff.mp hu
  have hown := hf.own s (List.mem_of_getElem? hs) unit hlt name hname
  change (readUnitFrom index (f.sets[index]?).toList name.toList).1 = _
  rw [hs, Option.toList_some, readUnitFrom]
  generalize s.readUnit name.toList = found at hown
  obtain ⟨found, left⟩ := found
  obtain rfl : found = some unit := hown
  rfl

/-- **A pair is read back** unless the amount is negative or the set asked does not know the
spelling. -/
theorem readPair_eq (hf : f.Legible) {name : String} (hname : f.Spells name) {amount : Rational}
    (hamount : amount.InLowestTerms) (hrest : NumberBehind rest)
    (hcs : trimStart cs = amount.text.toList ++ ' ' :: (name.toList ++ rest)) (set : Option ℕ) :
    f.readPair set cs =
      if amount.negative then (none, cs)
      else match (f.readUnit set name.toList).1 with
        | some found => (some (amount, found), rest)
        | none => (none, cs) := by
  have hspelling := hf.isSpelling_of_spells hname
  obtain ⟨c, ds, hcons, hblank, hdigit, hminus, hplus, hslash⟩ := hspelling.exists_cons
  have hhead : trimStart (' ' :: (name.toList ++ rest)) = c :: (ds ++ rest) := by
    rw [trimStart_space, hspelling.trimStart_append, hcons, List.cons_append]
  have hends : Rational.EndsRational (' ' :: (name.toList ++ rest)) := by
    refine ⟨Numeral.endsNumeral_cons rfl _, ?_, ?_⟩
    · rw [NoNumber, hhead]
      rintro d ⟨⟩
      exact ⟨hdigit, hminus, hplus⟩
    · rw [hhead]
      exact fun h => hslash (Option.some.inj h)
  obtain ⟨behind, hread, hbehind⟩ := hamount.read_text hcs hends
  have htrim : trimStart behind = name.toList ++ rest := by
    rw [hbehind, trimStart_space, hspelling.trimStart_append]
  have hself : trimStart name.toList = name.toList := by
    simpa using hspelling.trimStart_append []
  have hunit : Reader.Agrees (f.readUnit set) name.toList rest behind :=
    agrees_readUnit hf.isSpelling hrest hself htrim set
  unfold readPair
  simp only [hread]
  split
  · rfl
  · rw [hunit]
    rcases hfound : f.readUnit set name.toList with ⟨_ | ⟨index, unit⟩, left⟩
    · rfl
    · rw [hf.whole_readUnit hname hfound]
      rfl

end Legible

end Family

/-! ## The standard families -/

namespace Dimension

/-- **The standard families are legible.** -/
theorem legible (d : Dimension) : d.family.Legible := by
  cases d <;> decide +kernel

/-- **The first set that knows a spelling** is its own one. The rounds that also have actions are
the exception: their spellings are known as rounds alone before. -/
theorem readUnit_first (d : Dimension) :
    ∀ index (hindex : index < d.family.sets.length),
      ∀ unit (hunit : unit < d.family.sets[index].units.length),
        ∀ name ∈ d.family.sets[index].units[unit].names,
          (d.family.readUnit none name.toList).1 =
            if d = .duration ∧ index = 2 ∧ unit = 0 then some (1, 0) else some (index, unit) := by
  cases d <;> decide +kernel

/-- Behind rounds alone an action is unknown. -/
theorem readUnit_action {s : UnitSet} (hset : durationFamily.sets[2]? = some s) :
    ∀ u ∈ s.units.tail, ∀ name ∈ u.names,
      (durationFamily.readUnit (some 1) name.toList).1 = none := by
  obtain rfl := Option.some.inj hset
  decide +kernel

end Dimension

end Tabletop
