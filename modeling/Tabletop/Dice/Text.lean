import Tabletop.Dice.Basic
import Tabletop.Rational.Text

/-!
# Dice in text

* **text** writes `2d6 +1`, and a plain number for dice that are not random;
* **read** takes `INT d INT [INT]` or `INT` off a text: the dice and their limits must be right, the
  modifier may be missing;
* **parse** wants the whole text.
-/

namespace Tabletop.Dice

open Reader

/-- Dice in dice notation. -/
def text (d : Dice) : String :=
  if !d.isDefined then undefinedText
  else if d.count = 0 then Numeral.plain d.modifier
  else if d.sides = 1 then Numeral.plain (clamp (d.count + d.modifier))
  else Numeral.natural d.count ++ "d" ++ Numeral.natural d.sides ++
    if d.modifier = 0 then "" else " " ++ Numeral.signed d.modifier

/-- Takes dice off the text; what begins like dice and is none is left whole. -/
def read : Reader Dice := fun cs =>
  match int cs with
  | (none, _) => (none, cs)
  | (some first, afterFirst) =>
    match char 'd' afterFirst with
    | (none, _) => (some (fixed first), afterFirst)
    | (some _, afterMark) =>
      match int afterMark with
      | (none, _) => (none, cs)
      | (some sides, afterSides) =>
        if first > 0 then
          match make first sides 0 with
          | .error _ => (none, cs)
          | .ok d =>
            let (modifier, rest) := int afterSides
            (some { d with modifier := modifier.getD 0 }, rest)
        else (none, cs)

/-- Reads a whole text as dice. -/
def parse (source : String) : Except Failure Dice :=
  match read source.toList with
  | (some d, rest) => if Text.isBlankText rest then .ok d else .error (.unreadable "dice" source)
  | (none, _) => .error (.unreadable "dice" source)

/-! ## Strictness -/

theorem strict_read : Reader.Strict read := by
  intro cs
  unfold read
  split
  · exact Or.inl rfl
  · rename_i first afterFirst heq
    have hs := strict_int.suffix cs
    have hl := strict_int.lt_of_eq heq
    rw [heq] at hs
    split
    · exact Or.inr ⟨_, _, rfl, hs, hl⟩
    · rename_i afterMark hmark
      have hm := (strict_char 'd').suffix afterFirst
      rw [hmark] at hm
      split
      · exact Or.inl rfl
      · rename_i sides afterSides hsides
        have hi := strict_int.suffix afterMark
        have hl' := strict_int.lt_of_eq hsides
        rw [hsides] at hi
        split
        · split
          · exact Or.inl rfl
          · -- a modifier that is missing leaves the text behind the sides
            have hrest := ((strict_int.suffix afterSides).trans hi).trans hm
            have hlength := strict_int.length_le afterSides
            have hlength' := (strict_char 'd').lt_of_eq hmark
            exact Or.inr ⟨_, (int afterSides).2, rfl, hrest.trans hs, by omega⟩
        · exact Or.inl rfl

end Tabletop.Dice
