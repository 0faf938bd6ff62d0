import Tabletop.Comment.Layout
import Tabletop.Failure
import Tabletop.Rational.Text

/-!
# Comments

A comment consists of lines that begin with a starter, and of blank lines.

* **check** tells whether a text is a comment; blanks do not count in a line, not even inside the
  starter;
* **read** takes comment lines off a text until another line or a limit comes: a number of comment
  lines, or a number of blocks that blank lines divide.
-/

namespace Tabletop

/-- A comment with the starter and the limits it is read with; a limit that is missing does not
bind. -/
structure Comment where
  text : Option String
  maxComments : Option Nat
  maxLines : Option Nat
  starter : String
deriving DecidableEq, Repr

namespace Comment

/-- The starter of comments that choose none. -/
def defaultStarter : String := "#"

/-- A comment without text. -/
def template (maxComments maxLines : Option Nat) : Comment :=
  ⟨none, maxComments, maxLines, defaultStarter⟩

/-- The comment with another starter; an empty one changes nothing. -/
def withStarter (c : Comment) (starter : String) : Comment :=
  if starter = "" then c else { c with starter }

/-- Whether a line is blank or begins with the starter, blanks not counted. -/
def checkLine (starter line : List Char) : Bool :=
  let compact := line.filter fun c => !Text.isBlank c
  compact.isEmpty || starter.isPrefixOf compact

/-- Whether every line of a text is blank or begins with the starter. -/
def check (c : Comment) (text : String) : Bool :=
  (text.toList.splitOn '\n').all (checkLine c.starter.toList)

/-- The comment with a text that has comment lines only. -/
def withText (c : Comment) (text : String) : Except Failure Comment :=
  if c.check text then .ok { c with text := some text } else .error (.invalidComment c.starter)

/-- The comment with a text, or without one if that is no comment. -/
def asText (c : Comment) (text : String) : Comment :=
  { c with text := if c.check text then some text else none }

/-- Whether there is a text. -/
def isDefined (c : Comment) : Bool := c.text.isSome

/-- The text for display. -/
def display (c : Comment) : String := c.text.getD undefinedText

/-- The comment with its text tidied up. -/
def fix (c : Comment) : Comment :=
  { c with text := c.text.map fun text => String.ofList (tidy c.starter.toList text.toList) }

/-- Takes comment lines and blank lines off a text: what was read, blank lines emptied, and what is
left. A limit goes down with every comment line, or with the first blank line behind some. -/
def readLines (starter : List Char) (comments lines : Option Nat) (inComment : Bool) :
    List Char → List Char × List Char
  | [] => ([], [])
  | c :: cs =>
    if comments = some 0 ∨ lines = some 0 then ([], c :: cs)
    else
      let line := (Text.splitLine (c :: cs)).1
      let rest := (Text.splitLine (c :: cs)).2
      if Text.isBlankText line then
        let left := if inComment then comments.map (· - 1) else comments
        let (read, rest) := readLines starter left lines false rest
        ('\n' :: read, rest)
      else if starter.isPrefixOf (Text.trim line) then
        let (read, rest) := readLines starter comments (lines.map (· - 1)) true rest
        (line ++ '\n' :: read, rest)
      else ([], c :: cs)
termination_by cs => cs.length
decreasing_by all_goals exact Text.length_splitLine_lt c cs

/-- Takes a comment off a text within the limits. -/
def read (c : Comment) : Reader Comment := fun cs =>
  if c.maxComments = some 0 then (none, cs)
  else
    let (text, rest) := readLines c.starter.toList c.maxComments c.maxLines false cs
    if Text.isBlankText text then (none, rest)
    else (some { c with text := some (String.ofList text) }, rest)

end Comment

end Tabletop
