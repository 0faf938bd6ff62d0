import Tabletop.Failure

/-!
# Rationals

Signed mixed numbers `whole num/den`, with the sign kept beside three magnitudes, and an undefined
value that has no denominator.

* **reduced** is the only way to a defined value: it cancels the common divisor, splits off the
  whole part and stores each part, clamped on its own;
* **signed** gives the sign rule of mixed notation: after a negative whole part the fraction counts
  away from zero, after any other one a negative fraction is taken off;
* **numerator** is the signed numerator of the improper fraction over `den`, and all arithmetic is
  arithmetic on it;
* **toRat** is the number meant; the undefined value counts as zero there.
-/

namespace Tabletop

/-- A mixed number `whole num/den`, or the undefined value if `den` is zero. -/
structure Rational where
  negative : Bool
  whole : Nat
  num : Nat
  den : Nat
deriving DecidableEq, Repr

namespace Rational

/-- The value of something never set. -/
def undefined : Rational := ⟨false, 0, 0, 0⟩

instance : Inhabited Rational := ⟨undefined⟩

/-- Zero. -/
def zero : Rational := ⟨false, 0, 0, 1⟩

/-- One. -/
def one : Rational := ⟨false, 1, 0, 1⟩

/-- The fraction `n / d` in lowest terms as a mixed number; undefined if `d` is zero. -/
def reduced (n d : Int) : Rational :=
  if d = 0 then undefined
  else
    let common := Nat.gcd n.natAbs d.natAbs
    let magnitude := n.natAbs / common
    let den := d.natAbs / common
    { negative := decide (n ≠ 0) && (decide (n < 0) != decide (d < 0))
      whole := clampNat (magnitude / den)
      num := clampNat (magnitude % den)
      den := clampNat den }

/-- The integer `n`. -/
def ofInt (n : Int) : Rational := reduced n 1

/-- The improper numerator over `|d|` meant by `w n/d`. -/
def improper (w n d : Int) : Int :=
  if w < 0 then -(w.natAbs * d.natAbs + n.natAbs)
  else if decide (n < 0) != decide (d < 0) then w * d.natAbs - n.natAbs
  else w * d.natAbs + n.natAbs

/-- The mixed number `w n/d` for a denominator other than zero. -/
def signed (w n d : Int) : Rational := reduced (improper w n d) d.natAbs

/-- The mixed number `w n/d`. -/
def mixed (w n d : Int) : Except Failure Rational :=
  if d = 0 then .error .zeroDenominator else .ok (signed w n d)

/-- The plain fraction `n/d`. -/
def fraction (n d : Int) : Except Failure Rational := mixed 0 n d

/-! ## Views -/

/-- The signed numerator over `den`. -/
def numerator (r : Rational) : Int :=
  let magnitude : Int := r.whole * r.den + r.num
  if r.negative then -magnitude else magnitude

/-- The number meant, with zero for the undefined value. -/
def toRat (r : Rational) : Rat := mkRat r.numerator r.den

/-- Whether the value was set. -/
def isDefined (r : Rational) : Bool := r.den ≠ 0

/-- Zero. -/
def isNull (r : Rational) : Bool := r.isDefined && r.whole == 0 && r.num == 0

/-- Exactly one. -/
def isOne (r : Rational) : Bool := r.isDefined && !r.negative && r.whole == 1 && r.num == 0

/-- Whether a unit counted by `r` is named in the singular: a pure fraction or one. -/
def isSingular (r : Rational) : Bool := r.whole == 0 || (r.whole == 1 && r.num == 0)

/-- Whether there is a fraction beside the whole part. -/
def hasFraction (r : Rational) : Bool := r.num ≠ 0

/-- The signed whole part, cut toward zero. -/
def truncated (r : Rational) : Int := if r.negative then -(r.whole : Int) else r.whole

/-- The binary floating point number for a magnitude. -/
def floatOfNat (n : Nat) : Float := n.toUInt64.toFloat

/-- The binary floating point number for a stored integer. -/
def floatOfInt (n : Int) : Float := if n < 0 then -(floatOfNat n.natAbs) else floatOfNat n.natAbs

/-- The value in binary floating point: the whole part plus the rounded quotient. -/
def toFloat (r : Rational) : Float :=
  if r.isDefined then
    let magnitude := floatOfNat r.whole + floatOfNat r.num / floatOfNat r.den
    if r.negative then -magnitude else magnitude
  else 0.0

/-! ## Arithmetic -/

/-- The value with the opposite sign. -/
def negate (r : Rational) : Rational := if r.isDefined then reduced (-r.numerator) r.den else r

/-- The sum; an undefined operand yields the other one. -/
def add (r s : Rational) : Rational :=
  if !r.isDefined then s
  else if !s.isDefined then r
  else reduced (r.numerator * s.den + s.numerator * r.den) (r.den * s.den)

/-- The difference; an undefined operand counts for nothing. -/
def subtract (r s : Rational) : Rational := r.add s.negate

/-- The sum with an integer. -/
def addInt (r : Rational) (n : Int) : Rational := r.add (ofInt n)

/-- The difference from an integer, which is negated first. The negation wraps around. -/
def subtractInt (r : Rational) (n : Int) : Rational := r.add (ofInt (wrappedNeg n))

/-- The difference from an integer in a build. There is none if the build stops at the negation. -/
def subtractIntIn (build : Build) (r : Rational) (n : Int) : Option Rational :=
  (build.neg? n).map fun m => r.add (ofInt m)

/-- The product; undefined if an operand is. -/
def multiply (r s : Rational) : Rational :=
  if r.isDefined && s.isDefined then reduced (r.numerator * s.numerator) (r.den * s.den)
  else undefined

/-- The product with an integer. -/
def multiplyInt (r : Rational) (n : Int) : Rational :=
  if r.isDefined then reduced (r.numerator * n) r.den else r

/-- The quotient; undefined if an operand is. Zero divides nothing, not even the undefined value. -/
def divide (r s : Rational) : Except Failure Rational :=
  if s.isNull then .error .divisionByZero
  else if r.isDefined && s.isDefined then
    .ok (reduced (r.numerator * s.den) (r.den * s.numerator))
  else .ok undefined

/-- The quotient by an integer. -/
def divideInt (r : Rational) (n : Int) : Except Failure Rational :=
  if n = 0 then .error .divisionByZero
  else if r.isDefined then .ok (reduced r.numerator (r.den * n))
  else .ok r

/-- The value times `n / d`; undefined if `d` is zero. -/
def scaleBy (r : Rational) (n d : Int) : Rational :=
  match (r.multiplyInt n).divideInt d with
  | .ok s => s
  | .error _ => undefined

/-! ## Order -/

/-- The order of the numbers meant, with the undefined value below them all. -/
def compare (r s : Rational) : Ordering :=
  match r.isDefined, s.isDefined with
  | false, false => .eq
  | false, true => .lt
  | true, false => .gt
  | true, true => Ord.compare (r.numerator * s.den) (s.numerator * r.den)

/-- The order relative to an integer. -/
def compareInt (r : Rational) (n : Int) : Ordering := r.compare (ofInt n)

/-- The greater of two values; of two equal ones the second. -/
def max (r s : Rational) : Rational := if r.compare s = .gt then r else s

/-- The smaller of two values; of two equal ones the first. -/
def min (r s : Rational) : Rational := if r.compare s = .gt then s else r

end Rational

end Tabletop
