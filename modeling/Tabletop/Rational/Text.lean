import Tabletop.Rational.Basic
import Tabletop.Reader

/-!
# Rationals in text

* **text** writes a value as `2`, `1/2`, `-1 1/2` or `$undefined$`; **markup** writes the fraction
  in typesetting commands;
* **read** takes `INT`, `INT / INT` or `INT INT / INT` off a text; a fraction that does not complete
  is left unread;
* **parse** wants the whole text, and tells a zero denominator from other faults.
-/

namespace Tabletop

/-- The text of a value that was never set. -/
def undefinedText : String := "$undefined$"

namespace Rational

open Reader

/-- The sign in front of the magnitude. -/
def signText (r : Rational) : String := if r.negative then "-" else ""

/-- A value in mixed notation. -/
def text (r : Rational) : String :=
  if !r.isDefined then undefinedText
  else r.signText ++
    if r.num = 0 then Numeral.natural r.whole
    else if r.whole = 0 then Numeral.natural r.num ++ "/" ++ Numeral.natural r.den
    else Numeral.natural r.whole ++ " " ++ Numeral.natural r.num ++ "/" ++ Numeral.natural r.den

/-- A value with its fraction in typesetting commands, such as `\frac[1]` and two groups. -/
def markup (r : Rational) : String :=
  if !r.isDefined || !r.hasFraction then r.text
  else r.signText ++ "\\frac" ++
    (if r.whole = 0 then "" else "[" ++ Numeral.natural r.whole ++ "]")
    ++ "\x7b" ++ Numeral.natural r.num ++ "\x7d\x7b" ++ Numeral.natural r.den ++ "\x7d"

/-- A slash and a denominator other than zero. -/
def readDenominator : Reader Int := fun cs =>
  match char '/' cs with
  | (none, _) => (none, cs)
  | (some _, afterSlash) =>
    match int afterSlash with
    | (some d, rest) => if d = 0 then (none, cs) else (some d, rest)
    | (none, _) => (none, cs)

/-- A numerator and its denominator. -/
def readFraction : Reader (Int × Int) := fun cs =>
  match int cs with
  | (none, _) => (none, cs)
  | (some n, afterNum) =>
    match readDenominator afterNum with
    | (some d, rest) => (some (n, d), rest)
    | (none, _) => (none, cs)

/-- Takes a rational off the text. After a slash that leads to no denominator the integer alone
counts and the slash is left; a whole part also takes the blanks behind it. -/
def read : Reader Rational := fun cs =>
  match int cs with
  | (none, _) => (none, cs)
  | (some n, afterInt) =>
    match readDenominator afterInt with
    | (some d, rest) => (some (signed 0 n d), rest)
    | (none, _) =>
      match char '/' afterInt with
      | (some _, _) => (some (ofInt n), afterInt)
      | (none, _) =>
        match readFraction (Text.trimStart afterInt) with
        | (some (m, d), rest) => (some (signed n m d), rest)
        | (none, rest) => (some (ofInt n), rest)

/-- Whether the text ends a fraction with a zero denominator: an optional numerator, a slash, zero. -/
def endsInZero (cs : List Char) : Bool :=
  let afterNum := (int cs).2
  match char '/' afterNum with
  | (none, _) => false
  | (some _, afterSlash) =>
    match int afterSlash with
    | (some 0, rest) => Text.isBlankText rest
    | _ => false

/-- Reads a whole text as a rational. -/
def parse (source : String) : Except Failure Rational :=
  match read source.toList with
  | (none, _) => .error (.unreadable "rational" source)
  | (some r, rest) =>
    if Text.isBlankText rest then .ok r
    else if endsInZero rest then .error .zeroDenominator
    else .error (.unreadable "rational" source)

/-! ## Strictness -/

theorem strict_readDenominator : Reader.Strict readDenominator := by
  intro cs
  unfold readDenominator
  split
  · exact Or.inl rfl
  · rename_i _ afterSlash heq
    have hs := (strict_char '/').suffix cs
    have hl := (strict_char '/').lt_of_eq heq
    rw [heq] at hs
    split
    · rename_i d rest heq'
      split
      · exact Or.inl rfl
      · have hi := strict_int.suffix afterSlash
        have hl' := strict_int.lt_of_eq heq'
        rw [heq'] at hi
        exact Or.inr ⟨_, _, rfl, hi.trans hs, by omega⟩
    · exact Or.inl rfl

theorem strict_readFraction : Reader.Strict readFraction := by
  intro cs
  unfold readFraction
  split
  · exact Or.inl rfl
  · rename_i n afterNum heq
    have hs := strict_int.suffix cs
    have hl := strict_int.lt_of_eq heq
    rw [heq] at hs
    split
    · rename_i d rest heq'
      have hi := strict_readDenominator.suffix afterNum
      have hl' := strict_readDenominator.lt_of_eq heq'
      rw [heq'] at hi
      exact Or.inr ⟨_, _, rfl, hi.trans hs, by omega⟩
    · exact Or.inl rfl

theorem strict_read : Reader.Strict read := by
  intro cs
  unfold read
  split
  · exact Or.inl rfl
  · rename_i n afterInt heq
    have hs := strict_int.suffix cs
    have hl := strict_int.lt_of_eq heq
    rw [heq] at hs
    split
    · rename_i d rest heq'
      have hi := strict_readDenominator.suffix afterInt
      have hl' := strict_readDenominator.lt_of_eq heq'
      rw [heq'] at hi
      exact Or.inr ⟨_, _, rfl, hi.trans hs, by omega⟩
    · split
      · exact Or.inr ⟨_, _, rfl, hs, hl⟩
      · have ht := Text.length_trimStart_le afterInt
        split
        · rename_i m d rest heq'
          have hi := strict_readFraction.suffix (Text.trimStart afterInt)
          have hl' := strict_readFraction.lt_of_eq heq'
          rw [heq'] at hi
          exact Or.inr ⟨_, _, rfl, hi.trans ((Text.trimStart_suffix _).trans hs), by omega⟩
        · rename_i rest heq'
          have hi := strict_readFraction.suffix (Text.trimStart afterInt)
          rw [heq'] at hi
          have := hi.length_le
          dsimp only at this
          exact Or.inr ⟨_, _, rfl, hi.trans ((Text.trimStart_suffix _).trans hs), by omega⟩

end Rational

end Tabletop
