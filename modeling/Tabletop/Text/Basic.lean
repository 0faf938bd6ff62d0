import Tabletop.Text.Blank

/-!
# Texts

Texts are read as lists of characters.

* **trim** and **trimStart** drop blanks at the ends;
* **splitLine** takes the first line off a text, **splitOnce** what stands before a character;
* **utf8Size** is the length of a text in bytes, the unit in which positions are reported.
-/

namespace Tabletop.Text

/-- The text without its leading blanks. -/
def trimStart (cs : List Char) : List Char := cs.dropWhile isBlank

/-- The text without its trailing blanks. -/
def trimEnd (cs : List Char) : List Char := (cs.reverse.dropWhile isBlank).reverse

/-- The text without blanks at either end. -/
def trim (cs : List Char) : List Char := trimEnd (trimStart cs)

/-- A text of blanks only. -/
def isBlankText (cs : List Char) : Bool := cs.all isBlank

/-- The first line, without its line feed, and the text after that line feed. -/
def splitLine (cs : List Char) : List Char × List Char :=
  (cs.takeWhile (· ≠ '\n'), (cs.dropWhile (· ≠ '\n')).tail)

/-- What stands before and after the first `mark`. -/
def splitOnce (mark : Char) (cs : List Char) : Option (List Char × List Char) :=
  match cs.dropWhile (· ≠ mark) with
  | [] => none
  | _ :: rest => some (cs.takeWhile (· ≠ mark), rest)

/-- What follows `lead` in a text that begins with it. -/
def after? (lead : String) (cs : List Char) : Option (List Char) :=
  if lead.toList.isPrefixOf cs then some (cs.drop lead.toList.length) else none

/-- What precedes `tail` in a text that ends with it. -/
def before? (tail : String) (cs : List Char) : Option (List Char) :=
  if tail.toList.isSuffixOf cs then some (cs.take (cs.length - tail.toList.length)) else none

/-- The length in UTF-8 bytes. -/
def utf8Size (cs : List Char) : Nat := cs.foldr (fun c size => c.utf8Size + size) 0

/-- The trimmed text as a string. -/
def trimmed (cs : List Char) : String := String.ofList (trim cs)

/-- Trimming the front leaves an end of the text. -/
theorem trimStart_suffix (cs : List Char) : trimStart cs <:+ cs := List.dropWhile_suffix _

theorem length_trimStart_le (cs : List Char) : (trimStart cs).length ≤ cs.length :=
  (trimStart_suffix cs).length_le

/-- **What follows a mark** is an end of the text. -/
theorem splitOnce_snd_suffix {mark : Char} {cs before rest : List Char}
    (h : splitOnce mark cs = some (before, rest)) : rest <:+ cs := by
  unfold splitOnce at h
  split at h
  · cases h
  · rename_i c r heq
    have hs := List.dropWhile_suffix (l := cs) (· ≠ mark)
    rw [heq] at hs
    simp only [Option.some.injEq, Prod.mk.injEq] at h
    rw [← h.2]
    exact (List.suffix_cons _ _).trans hs

/-- **A line takes something off** every text that is not empty. -/
theorem length_splitLine_lt (c : Char) (cs : List Char) :
    (splitLine (c :: cs)).2.length < (c :: cs).length := by
  have h : ((c :: cs).dropWhile (· ≠ '\n')).length ≤ (c :: cs).length :=
    (List.dropWhile_suffix _).length_le
  simp only [splitLine, List.length_tail, List.length_cons] at h ⊢
  omega

end Tabletop.Text
