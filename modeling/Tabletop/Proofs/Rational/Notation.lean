import Tabletop.Proofs.Rational.Canonical
import Tabletop.Proofs.Text.Reading
import Tabletop.Rational.Text

/-!
# Mixed notation

A rational is stored by its sign and three magnitudes, and noted by three numbers of which the first
one that is not zero carries the sign.

* **signedParts** are these numbers. They stand for the numerator of the value
  (`improper_signedParts`), so a value in lowest terms is given back by them
  (`InLowestTerms.signed_signedParts`);
* the **readers** are opened once: what a success says of the parts that were read
  (`readDenominator_iff`, `readFraction_iff`, `read_eq_some`, `parse_eq_ok_iff`), and that it is the
  stored form of a number (`exists_ofRat_of_read`);
* the **text** of a value in lowest terms consists of them and is read as that value
  (`InLowestTerms.read_text`), if what follows does not go on with the number (`EndsRational`).
-/

namespace Tabletop

namespace Rational

open Reader Text

/-! ## Numbers with the sign -/

/-- The whole part, numerator and denominator of mixed notation, with the sign at the first one that
is not zero. -/
def signedParts (r : Rational) : ℤ × ℤ × ℤ :=
  (r.truncated, if r.negative ∧ r.whole = 0 then -r.num else r.num, r.den)

/-- The parts of a canonical value can be stored with any sign. -/
theorem Canonical.fits_signedParts {r : Rational} (hr : r.Canonical) :
    Fits r.signedParts.1 ∧ Fits r.signedParts.2.1 ∧ Fits r.signedParts.2.2 := by
  rcases canonical_iff.mp hr with rfl | h
  · decide
  · have hproper := h.proper
    have hwhole := h.whole_fits
    have hden := h.den_fits
    unfold signedParts truncated
    unfold Fits minStored maxStored at *
    dsimp only
    split <;> split <;> omega

/-- Mixed notation means the numerator of the value: after a whole part of zero the sign is with the
fraction, after any other one the fraction counts in its direction. -/
theorem improper_signedParts (r : Rational) :
    improper r.signedParts.1 r.signedParts.2.1 r.den = r.numerator := by
  have hden : ¬ (r.den : ℤ) < 0 := by omega
  have hwhole : ¬ (r.whole : ℤ) < 0 := by omega
  have hnum : ¬ (r.num : ℤ) < 0 := by omega
  unfold signedParts numerator improper truncated
  cases r.negative with
  | false => simp [hden, hwhole, hnum]
  | true =>
    by_cases hzero : r.whole = 0
    · by_cases hfraction : r.num = 0
      · simp [hzero, hfraction]
      · have hsign : -(r.num : ℤ) < 0 := by omega
        simp only [hzero, hsign, hden, true_and, if_true, Int.natCast_zero, Int.neg_zero,
          Int.lt_irrefl, if_false, decide_true, decide_false, Bool.true_bne, Bool.not_false]
        omega
    · have hsign : -(r.whole : ℤ) < 0 := by omega
      simp only [hzero, hsign, and_false, if_true, if_false, Int.natAbs_neg, Int.natAbs_natCast]

/-- The numbers of its notation stand for the number that a value means. -/
theorem signed_signedParts {r : Rational} (hr : r.isDefined = true) :
    signed r.signedParts.1 r.signedParts.2.1 r.den = ofRat r.toRat := by
  have hden : (r.den : ℤ) ≠ 0 := by exact_mod_cast isDefined_iff.mp hr
  rw [signed, improper_signedParts, Int.natAbs_natCast, reduced_eq_ofRat _ hden,
    Int.cast_natCast, ← toRat_eq_div]

/-- **A value in lowest terms** is what the numbers of its notation stand for. -/
theorem InLowestTerms.signed_signedParts {r : Rational} (h : r.InLowestTerms) :
    signed r.signedParts.1 r.signedParts.2.1 r.den = r :=
  (Rational.signed_signedParts h.isDefined).trans h.eq_ofRat.symm

/-- A value without a fraction means an integer. -/
theorem ofInt_truncated {r : Rational} (hr : r.isDefined = true) (hnum : r.num = 0) :
    ofInt r.truncated = ofRat r.toRat := by
  have hvalue : (r.truncated : ℚ) = r.toRat := by
    rw [toRat_eq_parts hr, hnum, truncated]
    split <;> simp
  rw [ofInt_eq_ofRat, hvalue]

/-! ## Texts -/

/-- A sign in front of a magnitude makes a numeral, unless the magnitude is zero. -/
theorem toList_signText (r : Rational) {m : ℕ} (hm : r.negative = true → m ≠ 0) :
    r.signText.toList ++ Numeral.digits m =
      (Numeral.plain (if r.negative then -(m : ℤ) else m)).toList := by
  rw [Numeral.toList_plain, signText]
  cases hnegative : r.negative with
  | false =>
    have hpos : ¬ (m : ℤ) < 0 := by omega
    simp [hpos]
  | true =>
    have hpos : 0 < m := Nat.pos_of_ne_zero (hm hnegative)
    simp [hpos]

/-- The text of a value, by its sign and its magnitudes. -/
theorem toList_text {r : Rational} (hr : r.isDefined = true) :
    r.text.toList = r.signText.toList ++
      if r.num = 0 then Numeral.digits r.whole
      else if r.whole = 0 then Numeral.digits r.num ++ '/' :: Numeral.digits r.den
      else Numeral.digits r.whole ++ ' ' :: (Numeral.digits r.num ++ '/' :: Numeral.digits r.den) := by
  have hslash : "/".toList = ['/'] := rfl
  have hspace : " ".toList = [' '] := rfl
  have hdef : (!r.isDefined) = false := by rw [hr]; rfl
  rw [text, hdef, if_neg Bool.false_ne_true, String.toList_append]
  congr 1
  split
  · exact String.toList_ofList
  · split <;> simp [Numeral.natural, hslash, hspace]

/-- The text of a value in lowest terms, by the numbers of its notation. -/
theorem InLowestTerms.toList_text {r : Rational} (h : r.InLowestTerms) :
    r.text.toList =
      if r.num = 0 then (Numeral.plain r.truncated).toList
      else if r.whole = 0 then
        (Numeral.plain r.signedParts.2.1).toList ++ '/' :: Numeral.digits r.den
      else (Numeral.plain r.truncated).toList ++
        ' ' :: (Numeral.digits r.num ++ '/' :: Numeral.digits r.den) := by
  have htruncated : r.truncated = if r.negative then -(r.whole : ℤ) else r.whole := rfl
  rw [Rational.toList_text h.isDefined]
  split
  · rename_i hnum
    rw [toList_signText, htruncated]
    exact fun hneg => (h.unsigned_zero hneg).resolve_right (not_not.mpr hnum)
  · rename_i hnum
    split
    · rename_i hwhole
      have hpart : r.signedParts.2.1 = if r.negative then -(r.num : ℤ) else r.num := by
        simp [signedParts, hwhole]
      rw [← List.append_assoc, toList_signText r fun _ => hnum, hpart]
    · rename_i hwhole
      rw [← List.append_assoc, toList_signText r fun _ => hwhole, htruncated]

theorem InLowestTerms.trimStart_text {r : Rational} (h : r.InLowestTerms) (cs : List Char) :
    trimStart (r.text.toList ++ cs) = r.text.toList ++ cs := by
  rw [h.toList_text]
  split
  · exact trimStart_plain _ _
  · split
    · rw [List.append_assoc]
      exact trimStart_plain _ _
    · rw [List.append_assoc]
      exact trimStart_plain _ _

/-! ## What the readers do -/

section Forms

variable {cs behind rest : List Char} {n m d : ℤ} {r : Rational}

/-- A denominator is read if a stroke and an integer other than zero are. -/
theorem readDenominator_iff : readDenominator cs = (some d, rest) ↔
    d ≠ 0 ∧ ∃ behind, char '/' cs = (some '/', behind) ∧ int behind = (some d, rest) := by
  constructor
  · intro h
    unfold readDenominator at h
    split at h
    · cases h
    · rename_i c behind hslash
      split at h
      · rename_i found left hint
        split at h
        · cases h
        · rename_i hd
          cases h
          obtain ⟨rfl, -⟩ := char_eq_some_iff.mp hslash
          exact ⟨hd, behind, hslash, hint⟩
      · cases h
  · rintro ⟨hd, behind, hslash, hint⟩
    rw [readDenominator, hslash]
    simp only [hint, if_neg hd]

/-- Without a stroke nothing is read, and nothing is consumed. -/
theorem readDenominator_eq_none (h : (trimStart cs).head? ≠ some '/') :
    readDenominator cs = (none, cs) := by
  rw [readDenominator, char_eq_none h]

theorem readFraction_iff : readFraction cs = (some (n, d), rest) ↔
    ∃ behind, int cs = (some n, behind) ∧ readDenominator behind = (some d, rest) := by
  constructor
  · intro h
    unfold readFraction at h
    split at h
    · cases h
    · rename_i m behind hint
      split at h
      · rename_i found left hden
        cases h
        exact ⟨behind, hint, hden⟩
      · cases h
  · rintro ⟨behind, hint, hden⟩
    rw [readFraction, hint]
    simp only [hden]

theorem readFraction_of_noNumber (h : NoNumber cs) : readFraction cs = (none, cs) := by
  rw [readFraction, int_eq_none h]

/-- **Inversion of `read`**: which form was completed, or what was left behind the integer. -/
theorem read_eq_some (h : read cs = (some r, rest)) : ∃ n behind, int cs = (some n, behind) ∧
    ((∃ d, readDenominator behind = (some d, rest) ∧ r = signed 0 n d) ∨
      (∃ m d, readFraction (trimStart behind) = (some (m, d), rest) ∧ r = signed n m d) ∨
      r = ofInt n ∧ (rest = behind ∨ rest = trimStart behind)) := by
  unfold read at h
  split at h
  · cases h
  · rename_i n behind hint
    refine ⟨n, behind, hint, ?_⟩
    split at h
    · rename_i d left hden
      cases h
      exact .inl ⟨d, hden, rfl⟩
    · split at h
      · cases h
        exact .inr (.inr ⟨rfl, .inl rfl⟩)
      · split at h
        · rename_i m d left hfraction
          cases h
          exact .inr (.inl ⟨m, d, hfraction, rfl⟩)
        · rename_i left hfraction
          cases h
          have hrestored : (readFraction (trimStart behind)).2 = trimStart behind :=
            strict_readFraction.restores (by rw [hfraction])
          rw [hfraction] at hrestored
          exact .inr (.inr ⟨rfl, .inr hrestored⟩)

/-- What is read is the stored form of a number. -/
theorem exists_ofRat_of_read (h : read cs = (some r, rest)) : ∃ q, r = ofRat q := by
  have hsigned (w n : ℤ) {d : ℤ} (hd : d ≠ 0) : ∃ q, signed w n d = ofRat q :=
    ⟨_, reduced_eq_ofRat _ (Int.natCast_ne_zero.mpr (Int.natAbs_ne_zero.mpr hd))⟩
  obtain ⟨n, behind, -, ⟨d, hden, rfl⟩ | ⟨m, d, hfraction, rfl⟩ | ⟨rfl, -⟩⟩ := read_eq_some h
  · exact hsigned 0 n (readDenominator_iff.mp hden).1
  · obtain ⟨_, -, hden⟩ := readFraction_iff.mp hfraction
    exact hsigned n m (readDenominator_iff.mp hden).1
  · exact ⟨_, ofInt_eq_ofRat n⟩

/-- **A text is parsed** if a value is read from it and only blanks are left. -/
theorem parse_eq_ok_iff {source : String} : parse source = .ok r ↔
    ∃ rest, read source.toList = (some r, rest) ∧ isBlankText rest = true := by
  rw [parse]
  cases hread : read source.toList with
  | mk found rest =>
    cases found with
    | none => simp
    | some s =>
      cases hrest : isBlankText rest with
      | true => simp [hrest]
      | false =>
        -- either failure is one
        cases hzero : endsInZero rest <;> simp [hrest, hzero]

/-! What `read` does, by what stands behind the first integer. -/

/-- With a stroke behind the first integer, that integer is a numerator. -/
theorem read_of_denominator (hint : int cs = (some n, behind))
    (hden : readDenominator behind = (some d, rest)) : read cs = (some (signed 0 n d), rest) := by
  rw [read, hint]
  simp only [hden]

/-- A slash that leads to no denominator is left. -/
theorem read_of_slash (hint : int cs = (some n, behind))
    (hden : readDenominator behind = (none, behind)) (hslash : char '/' behind = (some '/', rest)) :
    read cs = (some (ofInt n), behind) := by
  rw [read, hint]
  simp only [hden, hslash]

/-- With a fraction behind the first integer, that integer is a whole part. -/
theorem read_of_fraction (hint : int cs = (some n, behind))
    (hslash : (trimStart behind).head? ≠ some '/')
    (hfraction : readFraction (trimStart behind) = (some (m, d), rest)) :
    read cs = (some (signed n m d), rest) := by
  rw [read, hint]
  simp only [readDenominator_eq_none hslash, char_eq_none hslash, hfraction]

/-- With neither behind it, the first integer is the value. -/
theorem read_of_integer (hint : int cs = (some n, behind))
    (hslash : (trimStart behind).head? ≠ some '/')
    (hfraction : readFraction (trimStart behind) = (none, rest)) :
    read cs = (some (ofInt n), rest) := by
  rw [read, hint]
  simp only [readDenominator_eq_none hslash, char_eq_none hslash, hfraction]

end Forms

/-! ## Reading a text back -/

/-- The text does not go on with a rational in front of it. -/
structure EndsRational (cs : List Char) : Prop where
  endsNumeral : Numeral.EndsNumeral cs
  noNumber : NoNumber cs
  no_slash : (trimStart cs).head? ≠ some '/'

/-- A slash and the digits of a denominator. -/
theorem readDenominator_slash {cs tail : List Char} {d : ℕ}
    (hcs : trimStart cs = '/' :: (Numeral.digits d ++ tail)) (hd : d ≠ 0) (hfits : Fits (d : ℤ))
    (htail : Numeral.EndsNumeral tail) : readDenominator cs = (some (d : ℤ), tail) :=
  readDenominator_iff.mpr ⟨by exact_mod_cast hd, _, char_eq_some hcs,
    int_digits (trimStart_digits d tail) hfits htail⟩

/-- **The text of a value in lowest terms** is read as that value; blanks behind it may go. -/
theorem InLowestTerms.read_text {r : Rational} (h : r.InLowestTerms) {cs tail : List Char}
    (hcs : trimStart cs = r.text.toList ++ tail) (htail : EndsRational tail) :
    ∃ rest, read cs = (some r, rest) ∧ trimStart rest = trimStart tail := by
  have hproper := h.proper
  have hcanonical : r.Canonical := canonical_iff.mpr (.inr h)
  obtain ⟨hwhole, hsigned, hden⟩ := hcanonical.fits_signedParts
  have hnum : Fits (r.num : ℤ) := by
    have hfits := h.den_fits
    unfold Fits minStored maxStored at *
    omega
  have hden0 : r.den ≠ 0 := by omega
  rw [h.toList_text] at hcs
  split at hcs
  · -- an integer: nothing behind it makes a fraction
    rename_i hzero
    have hint := int_plain hcs hwhole htail.endsNumeral
    have hnext : NoNumber (trimStart tail) := by
      rw [NoNumber, trimStart_trimStart]
      exact htail.noNumber
    have hvalue := (ofInt_truncated h.isDefined hzero).trans h.eq_ofRat.symm
    have hread := read_of_integer hint htail.no_slash (readFraction_of_noNumber hnext)
    rw [hvalue] at hread
    exact ⟨trimStart tail, hread, trimStart_trimStart tail⟩
  · split at hcs
    · -- a fraction alone, whose numerator has the sign
      rename_i hzero
      rw [List.append_assoc, List.cons_append] at hcs
      have hint := int_plain hcs hsigned (Numeral.endsNumeral_cons rfl _)
      have hslash := readDenominator_slash (trimStart_cons rfl _) hden0 hden htail.endsNumeral
      have hvalue : signed 0 r.signedParts.2.1 r.den = r := by
        have hparts := h.signed_signedParts
        rwa [show r.signedParts.1 = 0 by simp [signedParts, truncated, hzero]] at hparts
      have hread := read_of_denominator hint hslash
      rw [hvalue] at hread
      exact ⟨tail, hread, rfl⟩
    · -- a whole part and a fraction behind it
      rename_i hwhole0
      rw [List.append_assoc, List.cons_append, List.append_assoc, List.cons_append] at hcs
      have hint := int_plain hcs hwhole (Numeral.endsNumeral_cons rfl _)
      have htrim :
          trimStart (' ' :: (Numeral.digits r.num ++ '/' :: (Numeral.digits r.den ++ tail))) =
            Numeral.digits r.num ++ '/' :: (Numeral.digits r.den ++ tail) := by
        rw [trimStart_space, trimStart_digits]
      have hnoslash : (trimStart (' ' :: (Numeral.digits r.num ++
          '/' :: (Numeral.digits r.den ++ tail)))).head? ≠ some '/' := by
        rw [htrim]
        exact Numeral.head?_digits_append_ne rfl _ _
      have hslash := readDenominator_slash (trimStart_cons rfl _) hden0 hden htail.endsNumeral
      have hfraction := int_digits (trimStart_digits r.num ('/' :: (Numeral.digits r.den ++ tail)))
        hnum (Numeral.endsNumeral_cons rfl _)
      have hvalue : signed r.truncated r.num r.den = r := by
        have hparts := h.signed_signedParts
        rwa [show r.signedParts.2.1 = r.num by simp [signedParts, hwhole0]] at hparts
      have hread := read_of_fraction hint hnoslash
        ((congrArg readFraction htrim).trans (readFraction_iff.mpr ⟨_, hfraction, hslash⟩))
      rw [hvalue] at hread
      exact ⟨tail, hread, rfl⟩

end Rational

end Tabletop
