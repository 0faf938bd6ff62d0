import Tabletop.Failure
import Tabletop.Modifier.Basic
import Tabletop.Reader

/-!
# Modifiers in text

* **read** takes bonuses `INT [TYPE] [if "CONDITION"]` off a text, one after the other, for as long as
  an integer follows; without a type a bonus is general;
* **parse** wants the whole text.
-/

namespace Tabletop

namespace Bonus

/-- Takes the name of a type off the text. -/
def readType : Reader BonusType := fun cs =>
  match Reader.longest (BonusType.all.map BonusType.name) cs with
  | (none, _) => (none, cs)
  | (some name, rest) =>
    match BonusType.ofName? name with
    | some kind => (some kind, rest)
    | none => (none, cs)

/-- Takes `if` and a quoted condition off the text. -/
def readCondition : Reader String := fun cs =>
  match Reader.word "if" cs with
  | (none, _) => (none, cs)
  | (some _, afterIf) =>
    match Reader.char '\x22' afterIf with
    | (none, _) => (none, cs)
    | (some _, quoted) =>
      match Text.splitOnce '\x22' quoted with
      | some (condition, rest) => (some (String.ofList condition), rest)
      | none => (none, cs)

/-- Takes one bonus off the text. -/
def read : Reader Bonus := fun cs =>
  match Reader.int cs with
  | (none, _) => (none, cs)
  | (some value, afterValue) =>
    let (kind, afterKind) := readType afterValue
    let (condition, rest) := readCondition afterKind
    (some ⟨value, kind.getD .general, condition⟩, rest)

/-! ## Strictness -/

theorem strict_readType : Reader.Strict readType := by
  intro cs
  unfold readType
  split
  · exact Or.inl rfl
  · rename_i name rest heq
    have hs := (Reader.strict_longest (BonusType.all.map BonusType.name)).suffix cs
    have hl := (Reader.strict_longest (BonusType.all.map BonusType.name)).lt_of_eq heq
    rw [heq] at hs
    split
    · exact Or.inr ⟨_, _, rfl, hs, hl⟩
    · exact Or.inl rfl

theorem strict_readCondition : Reader.Strict readCondition := by
  intro cs
  unfold readCondition
  split
  · exact Or.inl rfl
  · rename_i afterIf heq
    have hw := (Reader.strict_word "if").suffix cs
    have hl := (Reader.strict_word "if").lt_of_eq heq
    rw [heq] at hw
    split
    · exact Or.inl rfl
    · rename_i quoted heq'
      have hc := (Reader.strict_char '\x22').suffix afterIf
      rw [heq'] at hc
      split
      · rename_i condition rest hq
        have hr := (Text.splitOnce_snd_suffix hq).trans hc
        have := hr.length_le
        exact Or.inr ⟨_, _, rfl, hr.trans hw, by omega⟩
      · exact Or.inl rfl

theorem strict_read : Reader.Strict read := by
  intro cs
  unfold read
  split
  · exact Or.inl rfl
  · rename_i value afterValue heq
    have hs := Reader.strict_int.suffix cs
    have hl := Reader.strict_int.lt_of_eq heq
    rw [heq] at hs
    have hk := strict_readType.suffix afterValue
    have hc := strict_readCondition.suffix (readType afterValue).2
    have := (hc.trans hk).length_le
    exact Or.inr ⟨_, (readCondition (readType afterValue).2).2, rfl, (hc.trans hk).trans hs, by omega⟩

/-- Takes bonuses off the text as long as there are any. -/
def readAll (cs : List Char) : List Bonus × List Char :=
  match _step : read cs with
  | (none, _) => ([], cs)
  | (some b, rest) =>
    let (bs, rest) := readAll rest
    (b :: bs, rest)
termination_by cs.length
decreasing_by exact strict_read.lt_of_eq _step

theorem readAll_of_none {cs rest : List Char} (h : read cs = (none, rest)) :
    readAll cs = ([], cs) := by
  rw [readAll]
  split
  · rfl
  · rename_i hread
    rw [h] at hread
    cases hread

theorem readAll_of_some {cs rest : List Char} {b : Bonus} (h : read cs = (some b, rest)) :
    readAll cs = (b :: (readAll rest).1, (readAll rest).2) := by
  rw [readAll]
  split
  · rename_i hread
    rw [h] at hread
    cases hread
  · rename_i hread
    rw [h] at hread
    cases hread
    rfl

theorem readAll_suffix (cs : List Char) : (readAll cs).2 <:+ cs := by
  induction cs using readAll.induct with
  | case1 cs rest hread =>
    exact ⟨[], congrArg Prod.snd (readAll_of_none hread)⟩
  | case2 cs b rest hread bs behind hall ih =>
    have hs := strict_read.suffix cs
    rw [hread] at hs
    rw [readAll_of_some hread]
    exact ih.trans hs

end Bonus

namespace Modifier

/-- Takes a modifier off the text. -/
def read : Reader Modifier := fun cs =>
  let (links, rest) := Bonus.readAll cs
  (ofLinks? links, rest)

/-- Reads a whole text as a modifier. -/
def parse (source : String) : Except Failure Modifier :=
  match read source.toList with
  | (some m, rest) =>
    if Text.isBlankText rest then .ok m else .error (.unreadable "modifier" source)
  | (none, _) => .error (.unreadable "modifier" source)

theorem strict_read : Reader.Strict read := by
  intro cs
  unfold read
  rcases hread : Bonus.read cs with ⟨_ | b, rest⟩
  · rw [Bonus.readAll_of_none hread]
    exact Or.inl rfl
  · have hl := Bonus.strict_read.lt_of_eq hread
    have hs := Bonus.readAll_suffix cs
    have hall := (Bonus.readAll_suffix rest).length_le
    rw [Bonus.readAll_of_some hread] at hs ⊢
    exact Or.inr ⟨_, _, rfl, hs, by omega⟩

end Modifier

end Tabletop
