import Tabletop.Measure.Basic
import Tabletop.Measure.Definition

/-!
# Measures in text

* **text** and **shortText** write the amounts given, largest unit first, with full or shortest
  spellings; amounts of zero are left out, and zero in all is written in base units;
* **read** takes pairs of an amount and a unit off a text as long as they fit: the first unit decides
  the set, negative amounts do not belong to a measure, and amounts of one unit add up;
* **parse** wants the whole text.
-/

namespace Tabletop

namespace UnitSet

/-- Takes a spelling of one of the units off the text and answers the place of the unit. -/
def readUnit (s : UnitSet) : Reader Nat := fun cs =>
  match Reader.longest (s.units.flatMap MeasureUnit.names) cs with
  | (none, _) => (none, cs)
  | (some name, rest) =>
    match s.findUnit name with
    | some unit => (some unit, rest)
    | none => (none, cs)

theorem strict_readUnit (s : UnitSet) : Reader.Strict s.readUnit := by
  intro cs
  unfold readUnit
  split
  · exact Or.inl rfl
  · rename_i name rest heq
    have hs := (Reader.strict_longest (s.units.flatMap MeasureUnit.names)).suffix cs
    have hl := (Reader.strict_longest (s.units.flatMap MeasureUnit.names)).lt_of_eq heq
    rw [heq] at hs
    split
    · exact Or.inr ⟨_, _, rfl, hs, hl⟩
    · exact Or.inl rfl

end UnitSet

namespace Family

/-- Takes a unit off the text, of the first set from number `index` on that has it. -/
def readUnitFrom (index : Nat) : List UnitSet → Reader (Nat × Nat)
  | [], cs => (none, cs)
  | set :: sets, cs =>
    match set.readUnit cs with
    | (some unit, rest) => (some (index, unit), rest)
    | (none, _) => readUnitFrom (index + 1) sets cs

/-- Takes a unit off the text: of the set given, or of the first set that has it. -/
def readUnit (f : Family) (set : Option Nat) : Reader (Nat × Nat) := fun cs =>
  match set with
  | none => readUnitFrom 0 f.sets cs
  | some index => readUnitFrom index (f.sets[index]?).toList cs

theorem strict_readUnitFrom (sets : List UnitSet) (index : Nat) :
    Reader.Strict (readUnitFrom index sets) := by
  induction sets generalizing index with
  | nil => intro cs; exact Or.inl rfl
  | cons set sets ih =>
    intro cs
    unfold readUnitFrom
    split
    · rename_i unit rest heq
      have hs := set.strict_readUnit.suffix cs
      rw [heq] at hs
      exact Or.inr ⟨_, _, rfl, hs, set.strict_readUnit.lt_of_eq heq⟩
    · exact ih (index + 1) cs

theorem strict_readUnit (f : Family) (set : Option Nat) : Reader.Strict (f.readUnit set) := by
  intro cs
  unfold readUnit
  split
  · exact strict_readUnitFrom _ _ cs
  · exact strict_readUnitFrom _ _ cs

/-- Takes an amount that is not negative and its unit off the text. -/
def readPair (f : Family) (set : Option Nat) : Reader (Rational × Nat × Nat) := fun cs =>
  match Rational.read cs with
  | (none, _) => (none, cs)
  | (some amount, afterAmount) =>
    if amount.negative then (none, cs)
    else
      match f.readUnit set afterAmount with
      | (some unit, rest) => (some (amount, unit), rest)
      | (none, _) => (none, cs)

theorem strict_readPair (f : Family) (set : Option Nat) : Reader.Strict (f.readPair set) := by
  intro cs
  unfold readPair
  split
  · exact Or.inl rfl
  · rename_i amount afterAmount heq
    have hs := Rational.strict_read.suffix cs
    have hl := Rational.strict_read.lt_of_eq heq
    rw [heq] at hs
    split
    · exact Or.inl rfl
    · split
      · rename_i unit rest heq'
        have hu := (f.strict_readUnit set).suffix afterAmount
        have hl' := (f.strict_readUnit set).lt_of_eq heq'
        rw [heq'] at hu
        exact Or.inr ⟨_, _, rfl, hu.trans hs, by omega⟩
      · exact Or.inl rfl

end Family

namespace Measure

variable {k : Kind}

/-- The measure with an amount added to what is given for a unit; the first unit decides the set. -/
def give (m : Measure k) (amount : Rational) (index unit : Nat) : Measure k :=
  let slots := match m.set, k.family.sets[index]? with
    | none, some set => set.units.map fun _ => none
    | _, _ => m.slots
  { m with set := some index, slots := slots.modify unit fun slot => addSlot slot (some amount) }

/-- Takes pairs off the text and gives their amounts to the measure. -/
def readOnto (m : Measure k) (cs : List Char) : Measure k × List Char :=
  match _step : k.family.readPair m.set cs with
  | (none, _) => (m, cs)
  | (some (amount, index, unit), rest) => (m.give amount index unit).readOnto rest
termination_by cs.length
decreasing_by exact (k.family.strict_readPair m.set).lt_of_eq _step

/-- Where no pair follows, reading ends and nothing more is consumed. -/
theorem readOnto_of_none {m : Measure k} {cs rest : List Char}
    (h : k.family.readPair m.set cs = (none, rest)) : m.readOnto cs = (m, cs) := by
  rw [readOnto]
  split
  · rfl
  · rename_i hread
    rw [h] at hread
    cases hread

/-- A pair that follows is given to the measure, and reading goes on behind it. -/
theorem readOnto_of_some {m : Measure k} {cs rest : List Char} {amount : Rational}
    {index unit : Nat} (h : k.family.readPair m.set cs = (some (amount, index, unit), rest)) :
    m.readOnto cs = (m.give amount index unit).readOnto rest := by
  rw [readOnto]
  split
  · rename_i hread
    rw [h] at hread
    cases hread
  · rename_i hread
    rw [h] at hread
    cases hread
    rfl

/-- Reading on leaves an end of the text. -/
theorem readOnto_suffix (m : Measure k) (cs : List Char) : (m.readOnto cs).2 <:+ cs := by
  induction m, cs using readOnto.induct with
  | case1 m cs rest hread =>
    exact ⟨[], congrArg Prod.snd (readOnto_of_none hread)⟩
  | case2 m cs amount index unit rest hread ih =>
    have hs := (k.family.strict_readPair m.set).suffix cs
    rw [hread] at hs
    rw [readOnto_of_some hread]
    exact ih.trans hs

/-- Takes a measure of at least one pair off the text. -/
def read (k : Kind) : Reader (Measure k) := fun cs =>
  let (m, rest) := (undefined : Measure k).readOnto cs
  if m.isDefined then (some m, rest) else (none, cs)

theorem strict_read (k : Kind) : Reader.Strict (read k) := by
  intro cs
  unfold read
  rcases hread : k.family.readPair (undefined : Measure k).set cs with ⟨_ | ⟨amount, index, unit⟩, rest⟩
  · rw [readOnto_of_none hread]
    exact Or.inl rfl
  · have hl := (k.family.strict_readPair _).lt_of_eq hread
    have hs := readOnto_suffix (undefined : Measure k) cs
    have hall := (readOnto_suffix ((undefined : Measure k).give amount index unit) rest).length_le
    rw [readOnto_of_some hread] at hs ⊢
    dsimp only
    split
    · exact Or.inr ⟨_, _, rfl, hs, by omega⟩
    · exact Or.inl rfl

/-- Reads a whole text as a measure. -/
def parse (k : Kind) (source : String) : Except Failure (Measure k) :=
  match read k source.toList with
  | (some m, rest) => if Text.isBlankText rest then .ok m else .error (.unreadable k.name source)
  | (none, _) => .error (.unreadable k.name source)

/-- The amounts given other than zero, each written by `format`. -/
def render (format : MeasureUnit → Rational → String) (m : Measure k) : String :=
  match m.activeSet with
  | none => undefinedText
  | some set =>
    let parts := (set.units.zip m.slots).filterMap fun (u, slot) =>
      (slot.filter fun amount => !amount.isNull).map (format u)
    if parts = [] then "0 " ++ set.basePlural else String.intercalate " " parts

/-- The measure with units in singular or plural. -/
def text (m : Measure k) : String := m.render MeasureUnit.format

/-- The measure with the shortest spellings. -/
def shortText (m : Measure k) : String := m.render MeasureUnit.formatShort

end Measure

end Tabletop
