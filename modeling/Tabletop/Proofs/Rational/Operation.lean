import Mathlib.Data.Int.Cast.Lemmas
import Mathlib.Tactic.Linarith
import Mathlib.Tactic.Ring
import Tabletop.Proofs.Rational.Cut

/-!
# Operations

All operations on rationals as one kind of data, so that what holds of every result is said once.

* **Operation** is an operation with its operand; **apply** carries it out, and **exact** is the
  operation on numbers that it stands for;
* **run** carries it out in a build: an integer that is subtracted is negated in 64 bits, which a
  build with checks does not do to the least one (`run_eq_none_iff`), and which wraps around there in
  a build without them (`run_eq_some`);
* an operation on defined values stores the number **stored** (`apply_eq_ofRat`), which is the exact
  result unless the operand itself is cut before: an operand that is subtracted is negated first,
  and an integer that is added is stored first;
* the operations are **exact** (`operations_exact_iff`) where the result can be stored, except for
  adding or subtracting the least integer, whose magnitude cannot.

Products of numerators and denominators are unbounded integers here. A value in lowest terms has
parts of 63 bits each, and where these products leave 128 bits nothing is said about a program.
-/

namespace Tabletop

namespace Rational

/-- An operation on a value, with its operand. -/
inductive Operation where
  | negate
  | add (s : Rational)
  | subtract (s : Rational)
  | multiply (s : Rational)
  | divide (s : Rational)
  | addInt (n : ℤ)
  | subtractInt (n : ℤ)
  | multiplyInt (n : ℤ)
  | divideInt (n : ℤ)

namespace Operation

/-- The operation carried out. -/
def apply (r : Rational) : Operation → Except Failure Rational
  | negate => .ok r.negate
  | add s => .ok (r.add s)
  | subtract s => .ok (r.subtract s)
  | multiply s => .ok (r.multiply s)
  | divide s => r.divide s
  | addInt n => .ok (r.addInt n)
  | subtractInt n => .ok (r.subtractInt n)
  | multiplyInt n => .ok (r.multiplyInt n)
  | divideInt n => r.divideInt n

/-- The operation carried out in a build. There is no result where the build stops. -/
def run (build : Build) (r : Rational) : Operation → Option (Except Failure Rational)
  | subtractInt n => (r.subtractIntIn build n).map .ok
  | op => some (op.apply r)

/-- The operation on numbers. -/
def exact (q : ℚ) : Operation → ℚ
  | negate => -q
  | add s => q + s.toRat
  | subtract s => q - s.toRat
  | multiply s => q * s.toRat
  | divide s => q / s.toRat
  | addInt n => q + n
  | subtractInt n => q - n
  | multiplyInt n => q * n
  | divideInt n => q / n

/-- The number that is stored for the result. -/
def stored (q : ℚ) : Operation → ℚ
  | subtract s => q + s.negate.toRat
  | addInt n => q + (ofInt n).toRat
  | subtractInt n => q + (ofInt (wrappedNeg n)).toRat
  | op => op.exact q

/-- The operand, if it is a rational. -/
def operand? : Operation → Option Rational
  | add s | subtract s | multiply s | divide s => some s
  | _ => none

/-- The operation divides by zero. -/
def DividesByZero : Operation → Prop
  | divide s => s.toRat = 0
  | divideInt n => n = 0
  | _ => False

/-- The operation negates the least integer. -/
def Overflows : Operation → Prop
  | subtractInt n => n = minStored
  | _ => False

instance : DecidablePred Overflows
  | subtractInt n => inferInstanceAs (Decidable (n = minStored))
  | negate | add _ | subtract _ | multiply _ | divide _ | addInt _ | multiplyInt _ | divideInt _ =>
    isFalse not_false

/-- An integer that is added or subtracted has a magnitude that can be stored. Of the integers that
can be stored only the least one has not. -/
def KeepsInteger : Operation → Prop
  | addInt n | subtractInt n => (n.natAbs : ℤ) ≤ maxStored
  | _ => True

/-- The operand is defined. -/
def IsDefined (op : Operation) : Prop := ∀ s ∈ op.operand?, s.isDefined = true

end Operation

/-! ## What an operation stores -/

/-- Zero is the only defined value that means zero. -/
theorem isNull_iff {s : Rational} (hs : s.isDefined) : s.isNull = true ↔ s.toRat = 0 := by
  have hden : (s.den : ℚ) ≠ 0 := by exact_mod_cast isDefined_iff.mp hs
  rw [toRat_eq_div, div_eq_zero_iff, or_iff_left hden, Int.cast_eq_zero]
  constructor
  · intro hnull
    obtain ⟨hwhole, hnum⟩ : s.whole = 0 ∧ s.num = 0 := by simpa [isNull, hs] using hnull
    rw [numerator_eq, hwhole, hnum, Nat.zero_mul, Nat.cast_zero, mul_zero]
  · intro hzero
    by_contra hnull
    exact numerator_ne_zero hs (Bool.not_eq_true _ ▸ hnull) hzero

/-- In lowest terms there is one zero. -/
theorem InLowestTerms.eq_zero_of_isNull {r : Rational} (h : r.InLowestTerms)
    (hnull : r.isNull = true) : r = .zero := by
  refine (canonical_iff.mpr (.inr h)).ext (canonical_iff.mpr (.inr (by decide))) h.isDefined ?_
  exact (isNull_iff h.isDefined).mp hnull

/-- An integer is stored as its sign and its magnitude, cut to what fits. -/
theorem ofInt_eq (n : ℤ) : ofInt n = ⟨decide (n < 0), clampNat n.natAbs, 0, 1⟩ := by
  rw [ofInt_eq_ofRat, ofRat_eq, Rat.num_intCast, Rat.den_intCast, Nat.div_one, Nat.mod_one]
  rfl

theorem isDefined_ofInt (n : ℤ) : (ofInt n).isDefined = true := by
  rw [ofInt_eq_ofRat, isDefined_ofRat]

/-- **An operation on defined values** stores its number, unless it divides by zero. -/
theorem Operation.apply_eq_ofRat {op : Operation} {r : Rational} (hr : r.isDefined)
    (hop : op.IsDefined) (hzero : ¬ op.DividesByZero) :
    op.apply r = .ok (ofRat (op.stored r.toRat)) := by
  cases op with
  | negate => exact congrArg Except.ok (negate_eq_ofRat hr)
  | add s => exact congrArg Except.ok (add_eq_ofRat hr (hop s rfl))
  | subtract s =>
    have hs : s.negate.isDefined = true := by rw [isDefined_negate, hop s rfl]
    exact congrArg Except.ok (add_eq_ofRat hr hs)
  | multiply s => exact congrArg Except.ok (multiply_eq_ofRat hr (hop s rfl))
  | divide s =>
    have hs := hop s rfl
    have hnull : s.isNull = false := by
      rw [← Bool.not_eq_true, isNull_iff hs]
      exact hzero
    exact divide_eq_ofRat hr hs hnull
  | addInt n => exact congrArg Except.ok (add_eq_ofRat hr (isDefined_ofInt n))
  | subtractInt n => exact congrArg Except.ok (add_eq_ofRat hr (isDefined_ofInt (wrappedNeg n)))
  | multiplyInt n => exact congrArg Except.ok (multiplyInt_eq_ofRat hr n)
  | divideInt n => exact divideInt_eq_ofRat hr hzero

/-- Division by zero fails, and nothing else does. -/
theorem Operation.apply_eq_error_iff {op : Operation} {r : Rational} (hr : r.isDefined)
    (hop : op.IsDefined) : op.apply r = .error .divisionByZero ↔ op.DividesByZero := by
  constructor
  · intro h
    by_contra hzero
    rw [apply_eq_ofRat hr hop hzero] at h
    cases h
  · intro hzero
    cases op with
    | divide s =>
      have hnull : s.isNull = true := (isNull_iff (hop s rfl)).mpr hzero
      simp only [apply, Rational.divide, hnull, if_true]
    | divideInt n => simp only [apply, Rational.divideInt, show n = 0 from hzero, if_true]
    | _ => cases hzero

/-! ## Builds -/

/-- **A build with checks stops** at the negation of the least integer, and nothing else does. -/
theorem Operation.run_eq_none_iff {op : Operation} {build : Build} {r : Rational} :
    op.run build r = none ↔ build = .checked ∧ op.Overflows := by
  cases op with
  | subtractInt n =>
    rw [run, subtractIntIn, Option.map_map, Option.map_eq_none_iff, Overflows]
    cases build <;> simp [Build.neg?]
  | _ => simp [run, Overflows]

/-- **An operation that is not stopped** is carried out in every build alike. -/
theorem Operation.run_eq_some {op : Operation} {build : Build}
    (h : ¬ (build = .checked ∧ op.Overflows)) (r : Rational) :
    op.run build r = some (op.apply r) := by
  cases op with
  | subtractInt n =>
    cases build with
    | checked =>
      have hn : n ≠ minStored := fun hn => h ⟨rfl, hn⟩
      rw [run, apply, subtractIntIn, Rational.subtractInt, Build.neg?, if_neg hn,
        wrappedNeg_of_ne hn]
      rfl
    | unchecked => rfl
  | _ => rfl

/-- Division by zero fails in every build, and nothing else does. -/
theorem Operation.run_eq_error_iff {op : Operation} {build : Build} {r : Rational}
    (hr : r.isDefined) (hop : op.IsDefined) :
    op.run build r = some (.error .divisionByZero) ↔ op.DividesByZero := by
  by_cases hstops : build = .checked ∧ op.Overflows
  · -- what is stopped does not divide
    rw [run_eq_none_iff.mpr hstops]
    cases op with
    | subtractInt n => exact iff_of_false nofun not_false
    | _ => cases hstops.2
  · rw [run_eq_some hstops, Option.some_inj, apply_eq_error_iff hr hop]

/-! ## Exactness -/

/-- A storable number is less than the first whole part that is cut, and has a denominator that
fits. -/
theorem storable_iff {q : ℚ} : Storable q ↔ |q| < maxStored + 1 ∧ (q.den : ℤ) ≤ maxStored := by
  have hwhole : Fits ((q.num.natAbs / q.den : ℕ) : ℤ) ↔ |q| < maxStored + 1 := by
    have hpos : (0 : ℚ) < q.den := by exact_mod_cast q.den_pos
    have habs : |q| = (q.num.natAbs : ℚ) / q.den := by
      conv_lhs => rw [← Rat.num_div_den q]
      rw [abs_div, Nat.abs_cast, Nat.cast_natAbs, Int.cast_abs]
    have hfits : Fits ((q.num.natAbs / q.den : ℕ) : ℤ) ↔
        q.num.natAbs / q.den < maxStored.toNat + 1 := by
      generalize q.num.natAbs / q.den = whole
      unfold Fits minStored maxStored
      omega
    rw [habs, div_lt_iff₀ hpos, hfits, Nat.div_lt_iff_lt_mul q.den_pos]
    have hmax : (maxStored : ℚ) = (maxStored.toNat : ℚ) := rfl
    rw [hmax]
    exact_mod_cast Iff.rfl
  have hden : Fits (q.den : ℤ) ↔ (q.den : ℤ) ≤ maxStored := by
    unfold Fits minStored
    omega
  rw [Storable, hwhole, hden]

/-- An integer can be stored if its magnitude can. The least integer fits, and cannot. -/
theorem storable_intCast_iff {n : ℤ} : Storable n ↔ (n.natAbs : ℤ) ≤ maxStored := by
  rw [storable_iff, Rat.den_intCast, and_iff_left (by decide), ← Int.abs_eq_natAbs,
    ← Int.lt_add_one_iff]
  exact_mod_cast Iff.rfl

/-- An integer that cannot be stored is cut towards zero. -/
theorem toRat_ofInt_of_lt {n : ℤ} (h : maxStored < n.natAbs) :
    ∃ c : ℤ, (ofInt n).toRat = c ∧ (0 ≤ c ∧ c < n ∨ n < c ∧ c ≤ 0) := by
  have hcut : clampNat n.natAbs = maxStored.toNat := by
    unfold clampNat maxStored at *
    omega
  refine ⟨(if n < 0 then -1 else 1) * maxStored, ?_, ?_⟩
  · rw [toRat_eq_parts (isDefined_ofInt n), ofInt_eq, hcut]
    simp only [decide_eq_true_eq]
    split <;> simp <;> rfl
  · split <;> unfold maxStored at * <;> omega

/-- A sum with an integer that is cut is cut by as much, if the exact sum can be stored. -/
theorem toRat_add_ofInt_ne {r : ℚ} (hr : Storable r) {n : ℤ} (hn : maxStored < n.natAbs)
    (hsum : Storable (r + n)) : (ofRat (r + (ofInt n).toRat)).toRat ≠ r + n := by
  obtain ⟨c, hc, hbetween⟩ := toRat_ofInt_of_lt hn
  obtain ⟨hrabs, hrden⟩ := storable_iff.mp hr
  obtain ⟨hsumabs, -⟩ := storable_iff.mp hsum
  rw [abs_lt] at hrabs hsumabs
  -- the sum stored lies between the value and the exact sum
  have hbounds : -((maxStored : ℚ) + 1) < r + c ∧ r + c < maxStored + 1 := by
    rcases hbetween with ⟨hc0, hcn⟩ | ⟨hnc, hc0⟩
    · have hc0' : (0 : ℚ) ≤ c := by exact_mod_cast hc0
      have hcn' : (c : ℚ) < n := by exact_mod_cast hcn
      exact ⟨by linarith, by linarith⟩
    · have hc0' : (c : ℚ) ≤ 0 := by exact_mod_cast hc0
      have hnc' : (n : ℚ) < c := by exact_mod_cast hnc
      exact ⟨by linarith, by linarith⟩
  have hstored : Storable (r + c) :=
    storable_iff.mpr ⟨abs_lt.mpr hbounds, by rw [Rat.add_intCast_den]; exact hrden⟩
  rw [hc, toRat_ofRat hstored]
  intro heq
  have hcn : c = n := by exact_mod_cast add_left_cancel heq
  omega

/-- **Subtracting the least integer** is not exact where it wraps around: the least integer is added,
so that the result is not above zero, and the exact result would be. -/
theorem toRat_add_ofInt_minStored_ne {r : ℚ} (hr : Storable r) (hdiff : Storable (r - minStored)) :
    (ofRat (r + (ofInt minStored).toRat)).toRat ≠ r - minStored := by
  have hleast : (ofInt minStored).toRat = minStored + 1 := by decide +kernel
  obtain ⟨hrabs, -⟩ := storable_iff.mp hr
  obtain ⟨hdiffabs, -⟩ := storable_iff.mp hdiff
  rw [abs_lt] at hrabs hdiffabs
  have hmin : (minStored : ℚ) = -(maxStored + 1) := by decide +kernel
  have hmax : (0 : ℚ) < maxStored := by decide +kernel
  have hneg : r + (ofInt minStored).toRat < 0 := by
    rw [hleast]
    linarith
  have hstored := toRat_ofRat_nonpos hneg
  intro heq
  rw [heq] at hstored
  linarith

theorem toRat_ofInt {n : ℤ} (h : (n.natAbs : ℤ) ≤ maxStored) : (ofInt n).toRat = n := by
  rw [ofInt_eq_ofRat, toRat_ofRat (storable_intCast_iff.mpr h)]

namespace Operation

variable {op : Operation}

/-- What is stored is the exact result, if no operand is cut. -/
theorem stored_eq_exact (hop : ∀ s ∈ op.operand?, s.InLowestTerms) (hint : op.KeepsInteger)
    (q : ℚ) : op.stored q = op.exact q := by
  cases op with
  | subtract s =>
    have hs : Storable (-s.toRat) := storable_neg.mpr (hop s rfl).storable
    rw [stored, exact, toRat_negate hs, sub_eq_add_neg]
  | addInt n => rw [stored, exact, toRat_ofInt hint]
  | subtractInt n =>
    have hn : n ≠ minStored := by
      unfold KeepsInteger maxStored at hint
      unfold minStored
      omega
    have hneg : ((-n).natAbs : ℤ) ≤ maxStored := by rwa [Int.natAbs_neg]
    rw [stored, exact, wrappedNeg_of_ne hn, toRat_ofInt hneg, Int.cast_neg, sub_eq_add_neg]
  | _ => rfl

/-- An integer that is cut makes the result wrong. -/
theorem toRat_stored_ne {r : Rational} (hr : r.InLowestTerms) (hint : ¬ op.KeepsInteger)
    (h : Storable (op.exact r.toRat)) : (ofRat (op.stored r.toRat)).toRat ≠ op.exact r.toRat := by
  cases op with
  | addInt n => exact toRat_add_ofInt_ne hr.storable (not_le.mp hint) h
  | subtractInt n =>
    by_cases hn : n = minStored
    · subst hn
      exact toRat_add_ofInt_minStored_ne hr.storable h
    · have hneg : maxStored < ((-n).natAbs : ℤ) := by
        rw [Int.natAbs_neg]
        exact not_le.mp hint
      have hcast : r.toRat - n = r.toRat + ((-n : ℤ) : ℚ) := by
        rw [Int.cast_neg, sub_eq_add_neg]
      rw [stored, wrappedNeg_of_ne hn]
      rw [exact, hcast] at h ⊢
      exact toRat_add_ofInt_ne hr.storable hneg h
  | _ => exact absurd trivial hint

/-- **An operation is exact** if its result can be stored and no integer operand is cut. -/
theorem toRat_apply_iff {r t : Rational} (hr : r.InLowestTerms)
    (hop : ∀ s ∈ op.operand?, s.InLowestTerms) (ht : t = ofRat (op.stored r.toRat))
    (h : Storable (op.exact r.toRat)) : t.toRat = op.exact r.toRat ↔ op.KeepsInteger := by
  rw [ht]
  constructor
  · intro hexact
    by_contra hint
    exact toRat_stored_ne hr hint h hexact
  · intro hint
    rw [stored_eq_exact hop hint, toRat_ofRat h]

end Operation

/-! ## Mixed numbers -/

/-- The number that `w n/d` stands for: behind a negative whole part the fraction counts away from
zero. -/
def mixedNumber (w n d : ℤ) : ℚ :=
  if w < 0 then -(|(w : ℚ)| + |(n / d : ℚ)|) else w + n / d

/-- A quotient by its sign and its magnitudes. -/
theorem div_eq_abs (n d : ℤ) :
    (n / d : ℚ) = if decide (n < 0) != decide (d < 0) then -(|(n : ℚ)| / |(d : ℚ)|)
      else |(n : ℚ)| / |(d : ℚ)| := by
  rcases lt_or_ge n 0 with hn | hn <;> rcases lt_or_ge d 0 with hd | hd
  · rw [abs_of_neg (Int.cast_lt_zero.mpr hn), abs_of_neg (Int.cast_lt_zero.mpr hd), neg_div_neg_eq]
    simp [hn, hd]
  · rw [abs_of_neg (Int.cast_lt_zero.mpr hn), abs_of_nonneg (Int.cast_nonneg hd), neg_div, neg_neg]
    simp [hn, hd.not_gt]
  · rw [abs_of_nonneg (Int.cast_nonneg hn), abs_of_neg (Int.cast_lt_zero.mpr hd), div_neg, neg_neg]
    simp [hn.not_gt, hd]
  · rw [abs_of_nonneg (Int.cast_nonneg hn), abs_of_nonneg (Int.cast_nonneg hd)]
    simp [hn.not_gt, hd.not_gt]

/-- The improper numerator of mixed notation is that of the number the notation stands for. -/
theorem improper_div (w n : ℤ) {d : ℤ} (hd : d ≠ 0) :
    (improper w n d / d.natAbs : ℚ) = mixedNumber w n d := by
  have hden : |(d : ℚ)| ≠ 0 := abs_ne_zero.mpr (Int.cast_ne_zero.mpr hd)
  have hcast : ∀ m : ℤ, (m.natAbs : ℚ) = |(m : ℚ)| := fun m => by
    rw [Nat.cast_natAbs, Int.cast_abs]
  unfold improper mixedNumber
  split
  · -- a negative whole part makes all of it negative
    rw [abs_div]
    simp only [Int.cast_neg, Int.cast_add, Int.cast_mul, Int.cast_natCast, hcast]
    field_simp
  · rw [div_eq_abs]
    split <;> simp only [Int.cast_sub, Int.cast_add, Int.cast_mul, Int.cast_natCast, hcast] <;>
      field_simp
    ring

theorem signed_eq_ofRat (w n : ℤ) {d : ℤ} (hd : d ≠ 0) :
    signed w n d = ofRat (mixedNumber w n d) := by
  have hden : (d.natAbs : ℤ) ≠ 0 := by omega
  rw [signed, reduced_eq_ofRat _ hden, ← improper_div w n hd]
  rfl

/-- **A mixed number** is what is stored for the number that its notation stands for. -/
theorem mixed_eq_ofRat (w n : ℤ) {d : ℤ} (hd : d ≠ 0) :
    mixed w n d = .ok (ofRat (mixedNumber w n d)) := by
  rw [mixed, if_neg hd, signed_eq_ofRat w n hd]

/-! ## Arithmetic as a whole -/

/-- **Subtracting the least integer** from minus one leaves the greatest one, which can be stored. A
build with checks stops instead, and in one without them the result has the wrong sign. -/
theorem subtractInt_minStored_ne :
    Storable ((ofInt (-1)).toRat - minStored) ∧ (ofInt (-1)).toRat - minStored = maxStored ∧
      (ofInt (-1)).subtractIntIn .checked minStored = none ∧
      ((ofInt (-1)).subtractIntIn .unchecked minStored).map toRat = some (-maxStored : ℚ) := by
  decide +kernel

end Rational

end Tabletop
