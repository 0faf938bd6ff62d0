import Tabletop.Proofs.Rational.Notation
import Tabletop.Proofs.Rational.Operation
import Tabletop.Record.Numbers

/-!
# Values that can be obtained

Which values there can be, starting from integers, mixed numbers, texts and records, and going on
with any operations. Are they all canonical?

* **Obtained** is said of the values that can be made in this way;
* every one of them is undefined or the **stored form of a number** (`Obtained.isStored`), because
  whatever is made or computed goes through **reduced**;
* an obtained value is **in lowest terms exactly if its number stays reduced**
  (`obtained_inLowestTerms_iff`). So the form is kept as long as no denominator is cut, and then
  equality and comparison agree. A denominator that is cut can leave a fraction which is neither
  proper nor reduced (`fraction_not_inLowestTerms`).
-/

namespace Tabletop

namespace Rational

/-- A value that can be made and computed. -/
inductive Obtained : Rational → Prop
  | mixed {w n d : ℤ} {r : Rational} (h : mixed w n d = .ok r) : Obtained r
  | fraction {n d : ℤ} {r : Rational} (h : fraction n d = .ok r) : Obtained r
  | ofInt (n : ℤ) : Obtained (ofInt n)
  | parse {source : String} {r : Rational} (h : parse source = .ok r) : Obtained r
  | decode {record : Json} {r : Rational} (h : Recorded.decode record = .ok r) : Obtained r
  | apply {op : Operation} {r t : Rational} (hr : Obtained r) (hop : ∀ s ∈ op.operand?, Obtained s)
      (h : op.apply r = .ok t) : Obtained t

/-- The value is undefined or the stored form of a number. -/
def IsStored (r : Rational) : Prop := r = undefined ∨ ∃ q, r = ofRat q

/-- Whatever is reduced is the stored form of its quotient. -/
theorem isStored_reduced (n d : ℤ) : IsStored (reduced n d) := by
  by_cases hd : d = 0
  · left
    rw [reduced, if_pos hd]
  · exact .inr ⟨_, reduced_eq_ofRat n hd⟩

/-! ## Values that are made -/

/-- A mixed number is the stored form of a number. -/
theorem isStored_of_mixed {w n d : ℤ} {r : Rational} (h : mixed w n d = .ok r) : IsStored r := by
  unfold mixed at h
  split at h
  · cases h
  · cases h
    exact isStored_reduced _ _

/-- A rational that was read is the stored form of a number. -/
theorem isStored_of_parse {source : String} {r : Rational} (h : parse source = .ok r) :
    IsStored r := by
  obtain ⟨rest, hread, -⟩ := parse_eq_ok_iff.mp h
  exact .inr (exists_ofRat_of_read hread)

/-- A rational from a record is the stored form of a number, but for the record of zeros. -/
theorem isStored_of_decode {record : Json} {r : Rational} (h : Recorded.decode record = .ok r) :
    IsStored r := by
  change (Record.shaped (Record.mixedParts? record) >>= Record.rationalOf) = .ok r at h
  cases hparts : Record.mixedParts? record with
  | none =>
    rw [hparts] at h
    cases h
  | some parts =>
    rw [hparts] at h
    change Record.rationalOf parts = .ok r at h
    unfold Record.rationalOf at h
    split at h
    · -- a record of zeros
      cases h
      exact .inl rfl
    · exact isStored_of_mixed h

/-! ## Values that are computed -/

theorem IsStored.negate {r : Rational} (hr : IsStored r) : IsStored r.negate := by
  unfold Rational.negate
  split
  · exact isStored_reduced _ _
  · exact hr

theorem IsStored.add {r s : Rational} (hr : IsStored r) (hs : IsStored s) : IsStored (r.add s) := by
  unfold Rational.add
  split
  · exact hs
  · split
    · exact hr
    · exact isStored_reduced _ _

/-- **One operation** keeps that every value is the stored form of a number. -/
theorem IsStored.apply {op : Operation} {r t : Rational} (hr : IsStored r)
    (hop : ∀ s ∈ op.operand?, IsStored s) (h : op.apply r = .ok t) : IsStored t := by
  cases op with
  | negate =>
    cases h
    exact hr.negate
  | add s =>
    cases h
    exact hr.add (hop s rfl)
  | subtract s =>
    cases h
    exact hr.add (hop s rfl).negate
  | multiply s =>
    cases h
    unfold multiply
    split
    · exact isStored_reduced _ _
    · exact .inl rfl
  | divide s =>
    change r.divide s = .ok t at h
    unfold divide at h
    split at h
    · cases h
    · split at h <;> cases h
      · exact isStored_reduced _ _
      · exact .inl rfl
  | addInt n =>
    cases h
    exact hr.add (isStored_reduced n 1)
  | subtractInt n =>
    cases h
    exact hr.add (isStored_reduced (wrappedNeg n) 1)
  | multiplyInt n =>
    cases h
    unfold multiplyInt
    split
    · exact isStored_reduced _ _
    · exact hr
  | divideInt n =>
    change r.divideInt n = .ok t at h
    unfold divideInt at h
    split at h
    · cases h
    · split at h <;> cases h
      · exact isStored_reduced _ _
      · exact hr

/-- **Every value that can be obtained** is undefined or the stored form of a number. -/
theorem Obtained.isStored {r : Rational} (h : Obtained r) : IsStored r := by
  induction h with
  | mixed h => exact isStored_of_mixed h
  | fraction h => exact isStored_of_mixed h
  | ofInt n => exact isStored_reduced n 1
  | parse h => exact isStored_of_parse h
  | decode h => exact isStored_of_decode h
  | apply _ _ h ihr ihop => exact ihr.apply ihop h

/-! ## Canonical form -/

/-- **Obtained values are canonical exactly if their numbers stay reduced.** Every one is undefined
or the stored form of a number, and is in lowest terms exactly if that number stays reduced. For a
mixed number it is the number that it stands for, and for an operation on defined values the one
that it stores. Canonical values are equal exactly if they compare equal. -/
theorem obtained_inLowestTerms_iff {r : Rational} (hr : Obtained r) :
    (r = undefined ∨ ∃ q, r = ofRat q ∧ (r.InLowestTerms ↔ StaysReduced q)) ∧
    (∀ w n d t, mixed w n d = .ok t → (t.InLowestTerms ↔ StaysReduced (mixedNumber w n d))) ∧
    (∀ (op : Operation) t, r.isDefined → op.IsDefined → op.apply r = .ok t →
      (t.InLowestTerms ↔ StaysReduced (op.stored r.toRat))) ∧
    ∀ s, r = undefined ∨ r.InLowestTerms → s = undefined ∨ s.InLowestTerms →
      (r = s ↔ r.compare s = .eq) := by
  refine ⟨?_, fun w n d t ht => ?_, fun op t hrd hop ht => ?_, fun s hrc hsc => ?_⟩
  · rcases hr.isStored with h | ⟨q, rfl⟩
    · exact .inl h
    · exact .inr ⟨q, rfl, inLowestTerms_ofRat_iff q⟩
  · have hd : d ≠ 0 := by
      rintro rfl
      cases ht
    rw [mixed_eq_ofRat w n hd] at ht
    cases ht
    exact inLowestTerms_ofRat_iff _
  · have hzero : ¬ op.DividesByZero := by
      rw [← Operation.apply_eq_error_iff hrd hop, ht]
      intro h
      cases h
    rw [Operation.apply_eq_ofRat hrd hop hzero] at ht
    cases ht
    exact inLowestTerms_ofRat_iff _
  · exact ((canonical_iff.mpr hrc).compare_eq_iff (canonical_iff.mpr hsc)).symm

/-- A third, which is half of two thirds. -/
theorem obtained_inLowestTerms_third :
    let half : Rational := ⟨false, 0, 1, 2⟩
    let third := (⟨false, 0, 2, 3⟩ : Rational).multiply half
    third.InLowestTerms ∧ third.negate.InLowestTerms ∧ third = ⟨false, 0, 1, 3⟩ := by
  intro half third
  have hthird : Obtained third := by
    have hproduct : (Operation.multiply half).apply ⟨false, 0, 2, 3⟩ = .ok third := rfl
    refine .apply (.fraction (n := 2) (d := 3) rfl) ?_ hproduct
    rintro s ⟨⟩
    exact .fraction (n := 1) (d := 2) rfl
  obtain ⟨-, -, happly, hcompare⟩ := obtained_inLowestTerms_iff hthird
  have hterms : third.InLowestTerms := by decide +kernel
  refine ⟨hterms, ?_, ?_⟩
  · have hnegate := happly .negate third.negate hterms.isDefined (by rintro s ⟨⟩) rfl
    exact hnegate.mpr (by decide +kernel)
  · exact (hcompare ⟨false, 0, 1, 3⟩ (.inr hterms) (.inr (by decide))).mpr (by decide +kernel)

/-- **A fraction that is not in lowest terms**: the denominator is cut to the numerator. The value
compares equal to minus one and differs from it. -/
theorem fraction_not_inLowestTerms :
    ∃ r, fraction maxStored minStored = .ok r ∧ Obtained r ∧ r ≠ undefined ∧ ¬ r.InLowestTerms ∧
      r.compare (ofInt (-1)) = .eq ∧ r ≠ ofInt (-1) := by
  refine ⟨⟨true, 0, maxStored.toNat, maxStored.toNat⟩, by decide +kernel, ?_, by decide,
    by decide, by decide +kernel, by decide +kernel⟩
  exact .fraction (n := maxStored) (d := minStored) (by decide +kernel)

end Rational

end Tabletop
