import Tabletop.Text.Substitution

/-!
# Layout of comments

Four rules tidy a comment up, applied one after the other:

* **blankRuns** — three and more empty lines become one;
* **longRulers** — a line that begins with the comment's starter and a ruler of six and more dashes
  gets five;
* **dashTrailers** — three and more dashes at the end of a line are taken away;
* **dottedRulers** — a line of the starter and six and more dots gets five.

The starter may contain references to the parts that a rule found, which are filled in.
-/

namespace Tabletop.Comment

open Text

/-- A space or a tabulator. -/
def isGap (c : Char) : Bool := c == ' ' || c == '\t'

/-- A character that an empty line may contain. -/
def isFill (c : Char) : Bool := isGap c || c == '\x0c'

/-- The number of empty lines ahead and the text behind them. -/
def emptyLines (cs : List Char) : Nat × List Char :=
  match _ahead : cs.dropWhile isFill with
  | '\n' :: rest =>
    let (n, behind) := emptyLines rest
    (n + 1, behind)
  | _ => (0, cs)
termination_by cs.length
decreasing_by
  have hs := (List.dropWhile_suffix (l := cs) isFill).length_le
  rw [_ahead] at hs
  simp only [List.length_cons] at hs
  omega

/-- Three and more empty lines become one. -/
def blankRuns : Rule := fun _ cs =>
  let (n, behind) := emptyLines cs
  if n ≥ 3 then some (['\n', '\n'], cs.length - behind.length) else none

/-- The ways to take the start of a line off: nothing at the start of the text, or a line feed. -/
def lineStarts (atStart : Bool) (cs : List Char) : List (List Char × List Char) :=
  (if atStart then [([], cs)] else [])
    ++ match cs with
      | '\n' :: rest => [(['\n'], rest)]
      | _ => []

/-- The ways to take gaps off, most gaps first. -/
def gapSplits : List Char → List (List Char × List Char)
  | [] => [([], [])]
  | c :: cs =>
    if isGap c then (gapSplits cs).map (fun (gap, rest) => (c :: gap, rest)) ++ [([], c :: cs)]
    else [([], c :: cs)]

/-- Six and more of `mark` and the text behind them. -/
def sixOf? (mark : Char) (cs : List Char) : Option (List Char) :=
  if (cs.takeWhile (· = mark)).length ≥ 6 then some (cs.dropWhile (· = mark)) else none

/-- The end of a line: gaps, then a line feed or the end of the text. -/
def lineEnd? (cs : List Char) : Option (List Char × List Char) :=
  match cs.dropWhile isGap with
  | [] => some ([], [])
  | c :: rest => if c = '\n' then some (['\n'], rest) else none

/-- A rule for lines that begin with the starter: `finish` answers further parts and the text behind
them, and the template is filled with all that was found, the line start and the gaps. -/
def starterRule (starter : List Char) (finish : List Char → Option (List (List Char) × List Char))
    (template : List Char) : Rule := fun atStart cs =>
  (lineStarts atStart cs).findSome? fun (lead, line) =>
    (gapSplits line).findSome? fun (gap, text) => do
      let (parts, behind) ← finish (← after? (String.ofList starter) text)
      let n := cs.length - behind.length
      some (expand (cs.take n :: lead :: gap :: parts) template, n)

/-- The parts in front of the starter in a template. -/
def leadTemplate : List Char := "$\x7b1\x7d$\x7b2\x7d".toList

/-- A ruler of six and more dashes behind the starter gets five. -/
def longRulers (starter : List Char) : Rule :=
  starterRule starter (fun cs => (sixOf? '-' cs).map fun rest => ([], rest))
    (leadTemplate ++ starter ++ "-----".toList)

/-- Three and more dashes at the end of a line are taken away. -/
def dashTrailers : Rule := fun _ cs =>
  let dashes := cs.dropWhile isGap
  if (dashes.takeWhile (· = '-')).length ≥ 3 then
    (lineEnd? (dashes.dropWhile (· = '-'))).map fun (feed, rest) => (feed, cs.length - rest.length)
  else none

/-- A line of the starter and six and more dots gets five. -/
def dottedRulers (starter : List Char) : Rule :=
  starterRule starter
    (fun cs => (sixOf? '.' cs).bind fun rest => (lineEnd? rest).map fun (feed, rest) => ([feed], rest))
    (leadTemplate ++ starter ++ ".....\n".toList)

/-- A comment's text tidied up. -/
def tidy (starter text : List Char) : List Char :=
  substitute (dottedRulers starter) (substitute dashTrailers
    (substitute (longRulers starter) (substitute blankRuns text)))

end Tabletop.Comment
