import Tabletop.Decimal.Binary
import Tabletop.Text.Numeral

/-!
# Decimal places

* **withPlaces** writes a number of the smallest decimal place, with a point;
* **fixedText** writes a float with a given number of places: the exact value is rounded to the
  nearest decimal, and half-way between two to the one with an even last digit.
-/

namespace Tabletop.Decimal

/-- The digits of `n` with leading zeros, at least `width` in all. -/
def padded (width n : Nat) : List Char :=
  List.replicate (width - (Numeral.digits n).length) '0' ++ Numeral.digits n

/-- The decimal `n / 10 ^ places` with that many digits behind the point. -/
def withPlaces (places n : Nat) : List Char :=
  if places = 0 then Numeral.digits n
  else Numeral.digits (n / Nat.pow 10 places) ++ '.' :: padded places (n % Nat.pow 10 places)

/-- The integer nearest to `num / den`; of two the even one. -/
def roundHalfEven (num den : Nat) : Nat :=
  let twice := 2 * (num % den)
  if twice > den ∨ (twice = den ∧ num / den % 2 = 1) then num / den + 1 else num / den

/-- A float with `places` digits behind the point. -/
def fixedText (places : Nat) (f : Float) : String :=
  floatText (fun b => withPlaces places (roundHalfEven (b.value * Nat.pow 10 places) b.unit)) f

end Tabletop.Decimal
