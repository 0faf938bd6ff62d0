import Tabletop.Expression.Basic
import Tabletop.Reader
import Tabletop.Text.Word

/-!
# Expressions in text

The body between the brackets has one of these forms, tried in this order:

    magic armor(PLUS)    magic weapon(PLUS)    * NUM [/ NUM]
    ITEM(SPELL LEVEL[, CASTER LEVEL[, MATERIAL[, XP]]])    = TEXT

Line feeds in a body do not count. The digits of a form may be of any script, but only ASCII digits
make a number.
-/

namespace Tabletop.Expression

open Text

/-- The fault of a body that has no form, or a number that cannot be stored. -/
def unreadable (body : List Char) : Failure := .unreadable "expression" (String.ofList body)

/-- A row of digits of any script in parentheses behind `head`, with nothing else. -/
def digitsIn? (head : String) (body : List Char) : Option (List Char) := do
  let inner ← before? ")" (← after? (head ++ "(") body)
  if inner ≠ [] ∧ inner.all isDigit then some inner else none

/-- The two rows of digits of `* NUM [/ NUM]`. -/
def factorIn? (body : List Char) : Option (List Char × Option (List Char)) := do
  let cs := trimStart (← after? "*" body)
  let num := cs.takeWhile isDigit
  if num = [] then none
  else
    match cs.dropWhile isDigit with
    | [] => some (num, none)
    | rest =>
      let den := trimStart (← after? "/" (trimStart rest))
      if den ≠ [] ∧ den.all isDigit then some (num, some den) else none

/-- At most `most` rows of digits, separated by commas and closed by a parenthesis at the end. -/
def argumentsIn? : Nat → List Char → Option (List (List Char))
  | 0, _ => none
  | most + 1, cs =>
    let digits := cs.takeWhile isDigit
    if digits = [] then none
    else
      match cs.dropWhile isDigit with
      | [')'] => some [digits]
      | ',' :: rest => (argumentsIn? most (trimStart rest)).map (digits :: ·)
      | _ => none

/-- A word and one to four rows of digits in parentheses. -/
def callIn? (body : List Char) : Option (List Char × List (List Char)) :=
  let name := body.takeWhile isWordChar
  match name, body.dropWhile isWordChar with
  | _ :: _, '(' :: rest => (argumentsIn? 4 rest).map (name, ·)
  | _, _ => none

/-- The number of a row of digits. -/
def numberIn (body digits : List Char) : Except Failure Int :=
  match Numeral.int? digits with
  | some n => .ok n
  | none => .error (unreadable body)

/-- The number of an argument that may be missing. -/
def optionalIn (body : List Char) : Option (List Char) → Except Failure (Option Int)
  | none => .ok none
  | some digits => (numberIn body digits).map some

/-- The magic item that a call stands for. -/
def itemOf (body name : List Char) (arguments : List (List Char)) : Except Failure Expression :=
  match MagicItem.ofName? (String.ofList name) with
  | none => .error (.unknownMagicItem (String.ofList name))
  | some item => do
    let spellLevel ← numberIn body (arguments.headD [])
    let casterLevel ← optionalIn body arguments[1]?
    let material ← optionalIn body arguments[2]?
    let xp ← optionalIn body arguments[3]?
    (← makeItem item spellLevel casterLevel).withCosts (material.getD 0) (xp.getD 0)

/-- Reads the text between the brackets. -/
def parseBody (source : List Char) : Except Failure Expression :=
  let body := trim (source.filter (· ≠ '\n'))
  if let some digits := digitsIn? "magic armor" body then
    (numberIn body digits).map .magicArmor
  else if let some digits := digitsIn? "magic weapon" body then
    (numberIn body digits).map .magicWeapon
  else if let some (num, den) := factorIn? body then do
    let multiply ← numberIn body num
    let divide ← optionalIn body den
    makeFactor multiply (divide.getD 1)
  else if let some (name, arguments) := callIn? body then itemOf body name arguments
  else if let some replacement := after? "=" body then .ok (.equal (trimmed replacement))
  else .error (unreadable body)

/-- Takes a bracketed expression off the text. -/
def read : Reader Expression := fun cs =>
  match Reader.char '[' cs with
  | (none, _) => (none, cs)
  | (some _, inner) =>
    match splitOnce ']' inner with
    | none => (none, cs)
    | some (body, rest) =>
      match parseBody body with
      | .ok e => (some e, rest)
      | .error _ => (none, cs)

/-- Reads a whole text as a bracketed expression. -/
def parse (source : String) : Except Failure Expression :=
  match (after? "[" (trim source.toList)).bind (before? "]") with
  | some body => parseBody body
  | none => .error (.unreadable "expression" source)

/-! ## Strictness -/

theorem strict_read : Reader.Strict read := by
  intro cs
  unfold read
  split
  · exact Or.inl rfl
  · rename_i inner heq
    have hs := (Reader.strict_char '[').suffix cs
    have hl := (Reader.strict_char '[').lt_of_eq heq
    rw [heq] at hs
    split
    · exact Or.inl rfl
    · rename_i body rest hsplit
      have hr := splitOnce_snd_suffix hsplit
      split
      · have := hr.length_le
        exact Or.inr ⟨_, _, rfl, hr.trans hs, by omega⟩
      · exact Or.inl rfl

end Tabletop.Expression
