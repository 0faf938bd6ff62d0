import Tabletop.Text.Basic
import Tabletop.Text.Numeral

/-!
# Substitution in texts

* **substitute** goes through a text from its start, replaces whatever a rule finds, and goes on
  behind what was found;
* **expand** fills the references of a template, `$1`, `$name` or `$` and a name in braces, with the
  parts found.
-/

namespace Tabletop.Text

/-- A rule looks at what follows a place in a text, knowing whether the place is its start, and may
answer a replacement with the number of characters that it replaces. -/
abbrev Rule := Bool → List Char → Option (List Char × Nat)

/-- Applies a rule to all places that it fits, from left to right. -/
def substituteFrom (rule : Rule) (atStart : Bool) : List Char → List Char
  | [] => []
  | c :: cs =>
    match rule atStart (c :: cs) with
    | some (replacement, n) => replacement ++ substituteFrom rule false (cs.drop (n - 1))
    | none => c :: substituteFrom rule false cs
termination_by cs => cs.length
decreasing_by
  · simp only [List.length_drop, List.length_cons]; omega
  · simp

@[simp] theorem substituteFrom_nil (rule : Rule) (b : Bool) : substituteFrom rule b [] = [] := by
  rw [substituteFrom]

/-- Where a rule finds nothing, one character stays, and the next place is not the start. -/
theorem substituteFrom_of_none {rule : Rule} {b : Bool} {c : Char} {cs : List Char}
    (h : rule b (c :: cs) = none) :
    substituteFrom rule b (c :: cs) = c :: substituteFrom rule false cs := by
  rw [substituteFrom, h]

/-- Applies a rule throughout a text. -/
def substitute (rule : Rule) (cs : List Char) : List Char := substituteFrom rule true cs

/-- A character of the name of a reference. -/
def isNameChar (c : Char) : Bool := c.isAlphanum || c == '_'

/-- The part that a reference stands for; other names than those of parts stand for nothing. -/
def referenced (parts : List (List Char)) (name : List Char) : List Char :=
  ((Numeral.nat? 18446744073709551615 name).bind fun i => parts[i]?).getD []

/-- Fills the references of a template; a doubled dollar sign stands for one. -/
def expand (parts : List (List Char)) : List Char → List Char
  | [] => []
  | c :: cs =>
    if c ≠ '$' then c :: expand parts cs
    else
      match cs with
      | '$' :: rest => '$' :: expand parts rest
      | '\x7b' :: rest =>
        match _braced : splitOnce '\x7d' rest with
        | some (name, behind) => referenced parts name ++ expand parts behind
        | none => '$' :: expand parts ('\x7b' :: rest)
      | cs =>
        let name := cs.takeWhile isNameChar
        if name = [] then '$' :: expand parts cs
        else referenced parts name ++ expand parts (cs.dropWhile isNameChar)
termination_by cs => cs.length
decreasing_by
  · simp
  · simp only [List.length_cons]; omega
  · have := (splitOnce_snd_suffix _braced).length_le
    simp only [List.length_cons]; omega
  · simp
  · simp
  · have := (List.dropWhile_suffix (l := cs) isNameChar).length_le
    simp only [List.length_cons]; omega

theorem expand_nil (parts : List (List Char)) : expand parts [] = [] := by rw [expand]

/-- A template stays as it is but for its dollar signs. -/
theorem expand_cons {c : Char} (hc : c ≠ '$') (parts : List (List Char)) (cs : List Char) :
    expand parts (c :: cs) = c :: expand parts cs := by
  rw [expand.eq_def]
  exact if_pos hc

/-- A doubled dollar sign stands for one. -/
theorem expand_dollars (parts : List (List Char)) (cs : List Char) :
    expand parts ('$' :: '$' :: cs) = '$' :: expand parts cs := by
  rw [expand]
  simp

end Tabletop.Text
