import Tabletop.Proofs.Rational.Notation
import Tabletop.Proofs.Text.Lines

/-!
# The grammar of mixed notation

What is a rational in text, said without a reader: **Written** relates a text to the integers in it,
one that stands alone, two around a slash, or a whole part and a fraction behind it. The reader tries
the longer forms and goes back where they do not complete, so the question is which texts it takes to
their end.

* **It reads no others**: where only blanks are left, one of the forms was completed
  (`exists_written_of_parse`). Going back leaves a slash or an integer behind, and either is no
  blank.
* **It reads them all**, unless the denominator is zero. Then it goes back to the integer in front,
  and it is in what is left that the zero is found (`parse_eq_zeroDenominator`).

So a text is read whole **exactly if it is in mixed notation** with a denominator other than zero,
as the value that its integers stand for, and a denominator of zero is reported
(`parse_iff_noted`).
-/

namespace Tabletop.Rational

open Reader Text Numeral

/-! ## Mixed notation -/

/-- The integers of mixed notation. -/
inductive Noted where
  | integer (n : ℤ)
  | fraction (n d : ℤ)
  | mixed (w n d : ℤ)

/-- What they stand for; with a denominator of zero that is nothing. -/
def Noted.value : Noted → Except Failure Rational
  | .integer n => .ok (ofInt n)
  | .fraction n d => Rational.fraction n d
  | .mixed w n d => Rational.mixed w n d

/-- **A denominator** behind its slash, with blanks in front of both. -/
inductive WrittenDenominator : List Char → ℤ → Prop
  | slash {blanks blanks' numeral : List Char} {d : ℤ} (hblanks : isBlankText blanks = true)
    (hblanks' : isBlankText blanks' = true) (hnumeral : Denotes numeral d) (hfits : Fits d) :
    WrittenDenominator (blanks ++ '/' :: (blanks' ++ numeral)) d

/-- **Mixed notation**: an integer, a numerator and its denominator, or a whole part and a fraction
that blanks or its own sign keep apart from it. -/
inductive Written : List Char → Noted → Prop
  | integer {numeral : List Char} {n : ℤ} (hnumeral : Denotes numeral n) (hfits : Fits n) :
    Written numeral (.integer n)
  | fraction {numeral below : List Char} {n d : ℤ} (hnumeral : Denotes numeral n) (hfits : Fits n)
    (hbelow : WrittenDenominator below d) : Written (numeral ++ below) (.fraction n d)
  | mixed {lead blanks numeral below : List Char} {w n d : ℤ} (hlead : Denotes lead w)
    (hwhole : Fits w) (hblanks : isBlankText blanks = true) (hnumeral : Denotes numeral n)
    (hfits : Fits n) (happart : blanks ≠ [] ∨ numeral.head? = some '+' ∨ numeral.head? = some '-')
    (hbelow : WrittenDenominator below d) :
    Written (lead ++ (blanks ++ (numeral ++ below))) (.mixed w n d)

variable {cs rest core below after : List Char} {n d : ℤ} {r : Rational} {noted : Noted}

/-! ## Where the parts begin and end -/

/-- A denominator begins with its slash, blanks apart. -/
theorem WrittenDenominator.head?_trimStart (h : WrittenDenominator below d) (rest : List Char) :
    (trimStart (below ++ rest)).head? = some '/' := by
  cases h with
  | slash hblanks =>
    rw [List.append_assoc, trimStart_append hblanks, List.cons_append, trimStart_cons rfl]
    rfl

/-- A denominator begins with its stroke, if not with blanks before it. -/
theorem WrittenDenominator.isBlankText_eq_false (h : WrittenDenominator below d)
    (rest : List Char) : isBlankText (below ++ rest) = false := by
  refine Bool.eq_false_iff.mpr fun hblank => ?_
  have hhead := h.head?_trimStart rest
  rw [isBlankText_iff.mp hblank] at hhead
  cases hhead

theorem WrittenDenominator.endsNumeral (h : WrittenDenominator below d) (rest : List Char) :
    EndsNumeral (below ++ rest) := by
  cases h with
  | slash hblanks =>
    rw [List.append_assoc]
    exact endsNumeral_of_isBlankText hblanks (endsNumeral_cons rfl _)

/-- No number begins where a denominator does. -/
theorem WrittenDenominator.noNumber (h : WrittenDenominator below d) (rest : List Char) :
    NoNumber (below ++ rest) := by
  intro c hc
  rw [h.head?_trimStart rest] at hc
  cases hc
  decide

theorem WrittenDenominator.endsInDigit (h : WrittenDenominator below d) : EndsInDigit below := by
  cases h with
  | @slash blanks blanks' _ _ _ _ hnumeral =>
    exact ((hnumeral.endsInDigit.append blanks').append ['/']).append blanks

theorem Written.endsInDigit (h : Written core noted) : EndsInDigit core := by
  cases h with
  | integer hnumeral => exact hnumeral.endsInDigit
  | fraction _ _ hbelow => exact hbelow.endsInDigit.append _
  | mixed _ _ _ _ _ _ hbelow => exact ((hbelow.endsInDigit.append _).append _).append _

/-- A written rational begins with a digit or a sign. -/
theorem Written.trimStart_eq (h : Written core noted) : trimStart core = core := by
  cases h with
  | integer hnumeral =>
    have hstart := trimStart_numeral hnumeral []
    rwa [List.append_nil] at hstart
  | fraction hnumeral => exact trimStart_numeral hnumeral _
  | mixed hlead => exact trimStart_numeral hlead _

/-- Mixed notation has no blanks around it. -/
theorem Written.trim_eq (h : Written core noted) : trim core = core :=
  trim_of_endsInDigit h.endsInDigit (by rw [h.trimStart_eq, List.append_nil]) rfl

/-! ## The parts and their readers -/

/-- **A slash and an integer** are found one behind the other exactly where a denominator is
written. -/
theorem slash_int_iff :
    (∃ behind, char '/' cs = (some '/', behind) ∧ int behind = (some d, rest)) ↔
      ∃ below, cs = below ++ rest ∧ WrittenDenominator below d ∧ EndsNumeral rest := by
  constructor
  · rintro ⟨behind, hslash, hint⟩
    obtain ⟨blanks, hblanks, hcs⟩ := exists_blanks cs
    obtain ⟨blanks', hblanks', hbehind⟩ := exists_blanks behind
    obtain ⟨numeral, htrim, hnumeral, hfits, hends⟩ := int_eq_some_iff.mp hint
    rw [(char_eq_some_iff.mp hslash).2] at hcs
    rw [htrim] at hbehind
    refine ⟨_, ?_, .slash hblanks hblanks' hnumeral hfits, hends⟩
    rw [hcs, hbehind]
    simp only [List.append_assoc, List.cons_append]
  · rintro ⟨below, rfl, hbelow, hends⟩
    cases hbelow with
    | @slash blanks blanks' numeral _ hblanks hblanks' hnumeral hfits =>
      refine ⟨blanks' ++ (numeral ++ rest), char_eq_some ?_, int_of_denotes ?_ hnumeral hfits hends⟩
      · simp only [List.append_assoc, List.cons_append]
        rw [trimStart_append hblanks, trimStart_cons rfl]
      · rw [trimStart_append hblanks', trimStart_numeral hnumeral]

/-- **A denominator is read** exactly where one is written and ends. -/
theorem readDenominator_eq_some_iff : readDenominator cs = (some d, rest) ↔
    d ≠ 0 ∧ ∃ below, cs = below ++ rest ∧ WrittenDenominator below d ∧ EndsNumeral rest := by
  rw [readDenominator_iff, slash_int_iff]

/-- A denominator of zero is left unread. -/
theorem readDenominator_of_zero (h : WrittenDenominator below 0) (hrest : EndsNumeral rest) :
    readDenominator (below ++ rest) = (none, below ++ rest) := by
  obtain ⟨behind, hslash, hint⟩ := slash_int_iff.mpr ⟨below, rfl, h, hrest⟩
  rw [readDenominator, hslash]
  simp only [hint, if_true]

/-! ## What is read is mixed notation -/

/-- **What is read is mixed notation**, if only blanks are left behind it. -/
theorem exists_written_of_read (h : read cs = (some r, rest)) (hrest : isBlankText rest = true) :
    ∃ noted, Written (trim cs) noted ∧ noted.value = .ok r := by
  obtain ⟨core, after, noted, hcs, hcore, hafter, hvalue⟩ : ∃ core after noted,
      trimStart cs = core ++ after ∧ Written core noted ∧ isBlankText after = true ∧
        noted.value = .ok r := by
    obtain ⟨n, behind, hint, hform⟩ := read_eq_some h
    obtain ⟨numeral, hcs, hnumeral, hfits, hends⟩ := int_eq_some_iff.mp hint
    obtain ⟨d, hden, rfl⟩ | ⟨m, d, hfraction, rfl⟩ | ⟨rfl, hleft⟩ := hform
    · obtain ⟨hd, below, rfl, hbelow, -⟩ := readDenominator_eq_some_iff.mp hden
      refine ⟨_, rest, _, ?_, .fraction hnumeral hfits hbelow, hrest, if_neg hd⟩
      rw [hcs, List.append_assoc]
    · obtain ⟨behind', hint', hden⟩ := readFraction_iff.mp hfraction
      obtain ⟨hd, below, rfl, hbelow, -⟩ := readDenominator_eq_some_iff.mp hden
      obtain ⟨numeral', htrim, hnumeral', hfits', -⟩ := int_eq_some_iff.mp hint'
      obtain ⟨blanks, hblanks, hbehind⟩ := exists_blanks behind
      rw [trimStart_trimStart] at htrim
      rw [htrim] at hbehind
      have happart := (endsNumeral_append_iff hblanks hnumeral').mp (hbehind ▸ hends)
      refine ⟨_, rest, _, ?_, .mixed hnumeral hfits hblanks hnumeral' hfits' happart hbelow, hrest,
        if_neg hd⟩
      rw [hcs, hbehind]
      simp only [List.append_assoc]
    · -- the integer alone: nothing but blanks is behind it
      have hbehind : isBlankText behind = true := by
        rcases hleft with rfl | rfl
        · exact hrest
        · rw [isBlankText_iff, trimStart_trimStart] at hrest
          exact isBlankText_iff.mpr hrest
      exact ⟨numeral, behind, _, hcs, .integer hnumeral hfits, hbehind, rfl⟩
  refine ⟨noted, ?_, hvalue⟩
  rwa [trim_of_endsInDigit hcore.endsInDigit hcs hafter]

/-- What was parsed was written by the grammar, between blanks. -/
theorem exists_written_of_parse {source : String} (h : parse source = .ok r) :
    ∃ noted, Written (trim source.toList) noted ∧ noted.value = .ok r := by
  obtain ⟨rest, hread, hrest⟩ := parse_eq_ok_iff.mp h
  exact exists_written_of_read hread hrest

/-! ## Mixed notation is read -/

/-- **A denominator of zero** is found in what is left behind an integer, and maybe a numerator. -/
theorem parse_eq_zeroDenominator {source : String} (h : read source.toList = (some r, rest))
    (hnumber : (int rest).2 = below ++ after) (hbelow : WrittenDenominator below 0)
    (hafter : isBlankText after = true) : parse source = .error .zeroDenominator := by
  have hrest : isBlankText rest = false := by
    refine Bool.eq_false_iff.mpr fun hblank => ?_
    rw [int_eq_none (noNumber_of_isBlankText hblank)] at hnumber
    have hsome := hbelow.isBlankText_eq_false after
    rw [← hnumber, hblank] at hsome
    cases hsome
  have hzero : endsInZero rest = true := by
    obtain ⟨behind, hslash, hint⟩ :=
      slash_int_iff.mpr ⟨below, rfl, hbelow, endsNumeral_blanks hafter⟩
    rw [endsInZero, hnumber]
    simp only [hslash, hint, hafter]
  rw [parse, h]
  simp only [hrest, hzero, Bool.false_eq_true, if_false, if_true]

/-- An integer between blanks is parsed as that integer. -/
theorem parse_of_integer {source : String} {numeral : List Char}
    (hcs : trimStart source.toList = numeral ++ after) (hafter : isBlankText after = true)
    (hnumeral : Denotes numeral n) (hfits : Fits n) : parse source = .ok (ofInt n) := by
  have htrim := isBlankText_iff.mp hafter
  have hblank : isBlankText (trimStart after) = true := by rw [htrim]; rfl
  have hint := int_of_denotes hcs hnumeral hfits (endsNumeral_blanks hafter)
  have hslash : (trimStart after).head? ≠ some '/' := by
    rw [htrim]
    rintro ⟨⟩
  have hnone := readFraction_of_noNumber (noNumber_of_isBlankText hblank)
  exact parse_eq_ok_iff.mpr ⟨_, read_of_integer hint hslash hnone, hblank⟩

/-- A fraction between blanks is parsed as that fraction, or fails as it does. -/
theorem parse_of_fraction {source : String} {numeral : List Char}
    (hcs : trimStart source.toList = numeral ++ (below ++ after)) (hafter : isBlankText after = true)
    (hnumeral : Denotes numeral n) (hfits : Fits n) (hbelow : WrittenDenominator below d) :
    parse source = fraction n d := by
  have hends := endsNumeral_blanks hafter
  have hint := int_of_denotes hcs hnumeral hfits (hbelow.endsNumeral after)
  by_cases hd : d = 0
  · subst hd
    obtain ⟨behind, hslash, -⟩ := slash_int_iff.mpr ⟨below, rfl, hbelow, hends⟩
    have hread := read_of_slash hint (readDenominator_of_zero hbelow hends) hslash
    exact parse_eq_zeroDenominator hread (by rw [int_eq_none (hbelow.noNumber after)]) hbelow hafter
  · have hden := readDenominator_eq_some_iff.mpr ⟨hd, below, rfl, hbelow, hends⟩
    rw [parse_eq_ok_iff.mpr ⟨_, read_of_denominator hint hden, hafter⟩, fraction, mixed, if_neg hd]

/-- A mixed number between blanks is parsed as that number, or fails as it does. Blanks or a sign
keep its two numerals apart. -/
theorem parse_of_mixed {source : String} {lead blanks numeral : List Char} {w : ℤ}
    (hcs : trimStart source.toList = lead ++ (blanks ++ (numeral ++ (below ++ after))))
    (hafter : isBlankText after = true) (hlead : Denotes lead w) (hwhole : Fits w)
    (hblanks : isBlankText blanks = true) (hnumeral : Denotes numeral n) (hfits : Fits n)
    (happart : blanks ≠ [] ∨ numeral.head? = some '+' ∨ numeral.head? = some '-')
    (hbelow : WrittenDenominator below d) : parse source = mixed w n d := by
  have hends := endsNumeral_blanks hafter
  have hint := int_of_denotes hcs hlead hwhole ((endsNumeral_append_iff hblanks hnumeral).mpr happart)
  have htrim : trimStart (blanks ++ (numeral ++ (below ++ after))) = numeral ++ (below ++ after) := by
    rw [trimStart_append hblanks, trimStart_numeral hnumeral]
  have hslash : (trimStart (blanks ++ (numeral ++ (below ++ after)))).head? ≠ some '/' := by
    rw [htrim]
    exact hnumeral.head?_append_ne rfl (by decide) (by decide) _
  have hint' := int_of_denotes (trimStart_numeral hnumeral (below ++ after)) hnumeral hfits
    (hbelow.endsNumeral after)
  by_cases hd : d = 0
  · subst hd
    have hfraction : readFraction (numeral ++ (below ++ after)) =
        (none, numeral ++ (below ++ after)) := by
      rw [readFraction, hint']
      simp only [readDenominator_of_zero hbelow hends]
    have hread := read_of_integer hint hslash ((congrArg readFraction htrim).trans hfraction)
    exact parse_eq_zeroDenominator hread (by rw [hint']) hbelow hafter
  · have hden := readDenominator_eq_some_iff.mpr ⟨hd, below, rfl, hbelow, hends⟩
    have hread := read_of_fraction hint hslash
      ((congrArg readFraction htrim).trans (readFraction_iff.mpr ⟨_, hint', hden⟩))
    rw [parse_eq_ok_iff.mpr ⟨_, hread, hafter⟩, mixed, if_neg hd]

/-- **Mixed notation is read** as what its integers stand for. -/
theorem Written.parse_eq {source : String} (h : Written (trim source.toList) noted) :
    parse source = noted.value := by
  obtain ⟨after, hafter, hcs⟩ := exists_trimStart_eq_trim_append source.toList
  generalize trim source.toList = core at h hcs
  cases h with
  | integer hnumeral hfits => exact parse_of_integer hcs hafter hnumeral hfits
  | fraction hnumeral hfits hbelow =>
    rw [List.append_assoc] at hcs
    exact parse_of_fraction hcs hafter hnumeral hfits hbelow
  | mixed hlead hwhole hblanks hnumeral hfits happart hbelow =>
    simp only [List.append_assoc] at hcs
    exact parse_of_mixed hcs hafter hlead hwhole hblanks hnumeral hfits happart hbelow

/-! ## Reading a whole text -/

/-- **A text is read as a rational exactly if it is in mixed notation**, blanks around it apart, and
its integers stand for that rational; a denominator of zero is reported as such. -/
theorem parse_iff_noted (source : String) :
    (∀ r, parse source = .ok r ↔
      ∃ noted, Written (trim source.toList) noted ∧ noted.value = .ok r) ∧
    ∀ noted, Written (trim source.toList) noted → noted.value = .error .zeroDenominator →
      parse source = .error .zeroDenominator := by
  refine ⟨fun r => ⟨exists_written_of_parse, ?_⟩, ?_⟩
  · rintro ⟨noted, hwritten, hvalue⟩
    rw [hwritten.parse_eq, hvalue]
  · intro noted hwritten hvalue
    rw [hwritten.parse_eq, hvalue]

-- the sign of the numerator keeps it apart from the whole part and takes the fraction off
example : parse " +7-1 /02\n" = .ok ⟨false, 6, 1, 2⟩ := by decide

end Tabletop.Rational
