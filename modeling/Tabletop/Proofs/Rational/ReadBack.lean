import Tabletop.Proofs.Rational.Grammar
import Tabletop.Proofs.Rational.Obtained

/-!
# Rationals read back

Which values does their own text give back? The text puts the sign in front of the first part that is
written, and where it is read the sign counts for all of them.

* The text of every defined value is in mixed notation, if its parts can be stored, also where the
  value is not in lowest terms; its integers stand for the **number meant**
  (`exists_written_text`). So what is read is that number as it is stored (`parse_text_eq_ofRat`).
* What is read has parts that can be stored (`partsFit_ofRat`).

Hence the values that are read back are **exactly those in lowest terms**
(`parse_text_eq_ok_iff`).
-/

namespace Tabletop.Rational

open Reader Text Numeral

variable {r : Rational}

/-- The parts of a value can be stored. -/
structure PartsFit (r : Rational) : Prop where
  whole : Fits (r.whole : ℤ)
  num : Fits (r.num : ℤ)
  den : Fits (r.den : ℤ)

/-! ## Texts are in mixed notation -/

/-- A sign in front of a magnitude makes a numeral, also in front of zero. -/
theorem denotes_signText (r : Rational) (m : ℕ) :
    Denotes (r.signText.toList ++ digits m) (if r.negative then -(m : ℤ) else m) := by
  rw [signText]
  cases r.negative with
  | false => exact denotes_digits m
  | true =>
    have hminus := Denotes.minus (areDigits_digits m)
    rwa [value_digits] at hminus

/-- A magnitude that can be stored can be stored with its sign. -/
theorem fits_signed (r : Rational) {m : ℕ} (h : Fits (m : ℤ)) :
    Fits (if r.negative then -(m : ℤ) else m) := by
  unfold Fits minStored maxStored at *
  split <;> omega

/-- The denominator as it is written, behind its slash. -/
theorem writtenDenominator_digits {d : ℕ} (h : Fits (d : ℤ)) :
    WrittenDenominator ('/' :: digits d) d := by
  have hnil : isBlankText [] = true := rfl
  have hwritten := WrittenDenominator.slash hnil hnil (denotes_digits d) h
  exact hwritten

/-- **The text of a value** is in mixed notation, and its integers stand for the number meant. -/
theorem exists_written_text (hr : r.isDefined = true) (hfits : r.PartsFit) :
    ∃ noted, Written r.text.toList noted ∧ noted.value = .ok (ofRat r.toRat) := by
  have hden : (r.den : ℤ) ≠ 0 := by exact_mod_cast isDefined_iff.mp hr
  have hparts := signed_signedParts hr
  rw [toList_text hr]
  split
  · rename_i hnum
    refine ⟨.integer r.truncated, .integer (denotes_signText r r.whole)
      (fits_signed r hfits.whole), ?_⟩
    exact congrArg Except.ok (ofInt_truncated hr hnum)
  · split
    · -- the sign is with the numerator
      rename_i hwhole
      have hfirst : r.signedParts.1 = 0 := by simp [signedParts, truncated, hwhole]
      have hsecond : r.signedParts.2.1 = if r.negative then -(r.num : ℤ) else r.num := by
        simp [signedParts, hwhole]
      rw [hfirst, hsecond] at hparts
      rw [← List.append_assoc]
      refine ⟨_, .fraction (denotes_signText r r.num) (fits_signed r hfits.num)
        (writtenDenominator_digits hfits.den), ?_⟩
      rw [Noted.value, fraction, mixed, if_neg hden, hparts]
    · -- the sign is with the whole part
      rename_i hwhole
      have hsecond : r.signedParts.2.1 = r.num := by simp [signedParts, hwhole]
      rw [hsecond] at hparts
      have hspace : isBlankText [' '] = true := by decide
      have hwritten := Written.mixed (denotes_signText r r.whole) (fits_signed r hfits.whole) hspace
        (denotes_digits r.num) hfits.num (.inl (List.cons_ne_nil _ _))
        (writtenDenominator_digits hfits.den)
      rw [← List.append_assoc]
      refine ⟨_, hwritten, ?_⟩
      rw [Noted.value, mixed, if_neg hden]
      exact congrArg Except.ok hparts

/-- **What is read from the text of a value** is the number meant, as it is stored. -/
theorem parse_text_eq_ofRat (hr : r.isDefined = true) (hfits : r.PartsFit) :
    parse r.text = .ok (ofRat r.toRat) := by
  obtain ⟨noted, hwritten, hvalue⟩ := exists_written_text hr hfits
  rw [← hwritten.trim_eq] at hwritten
  rw [hwritten.parse_eq, hvalue]

/-! ## Values that are read back -/

/-- The parts of what is stored are cut to what can be stored. -/
theorem partsFit_ofRat (q : ℚ) : (ofRat q).PartsFit := by
  rw [ofRat_eq]
  exact ⟨fits_clampNat _, fits_clampNat _, fits_clampNat _⟩

theorem InLowestTerms.partsFit (h : r.InLowestTerms) : r.PartsFit := by
  rw [h.eq_ofRat]
  exact partsFit_ofRat _

/-- **A value in lowest terms** is read from its text. -/
theorem parse_text (h : r.InLowestTerms) : parse r.text = .ok r := by
  rw [parse_text_eq_ofRat h.isDefined h.partsFit, ← h.eq_ofRat]

/-- **A value is read back from its text exactly if it is in lowest terms.** -/
theorem parse_text_eq_ok_iff (r : Rational) : parse r.text = .ok r ↔ r.InLowestTerms := by
  constructor
  · intro h
    rcases isStored_of_parse h with rfl | ⟨q, rfl⟩
    · -- the text of the undefined value is not read at all
      have hnone : read undefined.text.toList = (none, undefined.text.toList) := by decide
      rw [parse, hnone] at h
      cases h
    · have hdef := isDefined_ofRat q
      rw [parse_text_eq_ofRat hdef (partsFit_ofRat q)] at h
      have hcanonical : (ofRat q).Canonical := .inr (Except.ok.inj h).symm
      exact hcanonical.inLowestTerms hdef
  · exact parse_text

-- the greatest parts that can be stored
example : parse (⟨true, 9223372036854775807, 9223372036854775806, 9223372036854775807⟩ :
    Rational).text =
    .ok ⟨true, 9223372036854775807, 9223372036854775806, 9223372036854775807⟩ := by
  decide +kernel

end Tabletop.Rational
