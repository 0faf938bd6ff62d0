import Tabletop.Comment.Basic
import Tabletop.Json.Fields
import Tabletop.Json.Parser
import Tabletop.Json.Printer
import Tabletop.Random.DiceBag
import Tabletop.Value.Basic

/-!
# Settings

Limits of comments, the levels of simplification, and the seed of the dice. Settings are kept as JSON,
where everything that is missing has its default; **ofJson** admits only settings that are **valid**.
-/

namespace Tabletop

/-- Why settings were not admitted. -/
inductive SettingsFailure where
  | belowMinimum (field : String) (least value : Int)
  | emptyStarter
  | malformed
deriving DecidableEq, Repr

/-- The wording of a failure. -/
def SettingsFailure.message : SettingsFailure → String
  | .belowMinimum field least value =>
    field ++ " must be at least " ++ Numeral.plain least ++ " (got " ++ Numeral.plain value ++ ")"
  | .emptyStarter => "comment starter must not be empty"
  | .malformed => "invalid configuration JSON"

/-- How comments are read. -/
structure CommentSettings where
  maxComments : Option Nat
  maxLines : Option Nat
  starter : String
deriving DecidableEq, Repr

namespace CommentSettings

/-- No limits and the usual starter. -/
def standard : CommentSettings := ⟨none, none, Comment.defaultStarter⟩

/-- Refuses a blank starter and limits of zero. -/
def check (s : CommentSettings) : Except SettingsFailure Unit :=
  if Text.isBlankText s.starter.toList then .error .emptyStarter
  else if s.maxComments = some 0 then .error (.belowMinimum "comment.max_comments" 1 0)
  else if s.maxLines = some 0 then .error (.belowMinimum "comment.max_lines" 1 0)
  else .ok ()

/-- A comment to be read with these settings. -/
def template (s : CommentSettings) : Comment :=
  (Comment.template s.maxComments s.maxLines).withStarter s.starter

/-- The settings in JSON. -/
def encode (s : CommentSettings) : Json :=
  .record
    [("max_comments", .ofOption (fun n => .int n) s.maxComments),
     ("max_lines", .ofOption (fun n => .int n) s.maxLines),
     ("starter", .text s.starter)]

/-- The settings that JSON holds. -/
def decode? (j : Json) : Option CommentSettings := do
  let f ← j.fields? ["max_comments", "max_lines", "starter"]
  let maxComments ← f.withDefault "max_comments" none (Json.nullable Json.nat?)
  let maxLines ← f.withDefault "max_lines" none (Json.nullable Json.nat?)
  let starter ← f.withDefault "starter" Comment.defaultStarter Json.text?
  some ⟨maxComments, maxLines, starter⟩

end CommentSettings

/-- The level of simplification of every dimension. -/
structure Levels where
  distance : Int
  area : Int
  duration : Int
  volume : Int
  weight : Int
  money : Int
deriving DecidableEq, Repr

namespace Levels

/-- The usual levels. -/
def standard : Levels :=
  ⟨Dimension.distance.level, Dimension.area.level, Dimension.duration.level,
   Dimension.volume.level, Dimension.weight.level, Dimension.money.level⟩

/-- The level of a dimension. -/
def of (l : Levels) : Dimension → Int
  | .distance => l.distance
  | .area => l.area
  | .duration => l.duration
  | .volume => l.volume
  | .weight => l.weight
  | .money => l.money

/-- Refuses levels below one. -/
def check (l : Levels) : Except SettingsFailure Unit :=
  match Dimension.all.find? fun d => l.of d < 1 with
  | some d => .error (.belowMinimum ("simplify." ++ d.name) 1 (l.of d))
  | none => .ok ()

/-- The level for a kind of values, if it has units. -/
def ofKind? (l : Levels) : ValueKind → Option Int
  | .measure d => some (l.of d)
  | _ => none

/-- A value with the level for its kind. -/
def apply (l : Levels) : Value → Value
  | .measure d m => .measure d (m.withLevel (l.of d))
  | v => v

/-- The levels in JSON. -/
def encode (l : Levels) : Json := .record (Dimension.all.map fun d => (d.name, .int (l.of d)))

/-- The levels that JSON holds. -/
def decode? (j : Json) : Option Levels := do
  let f ← j.fields? (Dimension.all.map Dimension.name)
  let level (d : Dimension) : Option Int := f.withDefault d.name d.level Json.int?
  some ⟨← level .distance, ← level .area, ← level .duration, ← level .volume, ← level .weight,
    ← level .money⟩

end Levels

/-- All settings; without a seed the dice are seeded anew each time. -/
structure Settings where
  comment : CommentSettings
  simplify : Levels
  diceSeed : Option Nat
deriving DecidableEq, Repr

namespace Settings

/-- The settings where nothing was chosen. -/
def standard : Settings := ⟨.standard, .standard, none⟩

/-- Refuses settings that are not valid. -/
def check (s : Settings) : Except SettingsFailure Unit := do
  s.comment.check
  s.simplify.check

/-- The settings in JSON. -/
def encode (s : Settings) : Json :=
  .record
    [("comment", s.comment.encode), ("simplify", s.simplify.encode),
     ("dice_seed", .ofOption (fun n => .int n) s.diceSeed)]

/-- The settings that JSON holds. -/
def decode? (j : Json) : Option Settings := do
  let f ← j.fields? ["comment", "simplify", "dice_seed"]
  let comment ← f.withDefault "comment" .standard CommentSettings.decode?
  let simplify ← f.withDefault "simplify" .standard Levels.decode?
  let diceSeed ← f.withDefault "dice_seed" none (Json.nullable Json.nat?)
  some ⟨comment, simplify, diceSeed⟩

/-- The settings as a JSON text. -/
def toJson (s : Settings) : String := s.encode.compact

/-- Valid settings from a JSON text. -/
def ofJson (source : String) : Except SettingsFailure Settings :=
  match (Json.parse source).bind decode? with
  | none => .error .malformed
  | some s => do
    s.check
    return s

/-- The dice bag of the seed, if there is one. -/
def diceBag (s : Settings) : Option Random.DiceBag :=
  s.diceSeed.map fun seed => .ofSeed seed.toUInt64

end Settings

end Tabletop
