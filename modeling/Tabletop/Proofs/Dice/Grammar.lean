import Tabletop.Proofs.Record.Numbers
import Tabletop.Proofs.Text.Lines

/-!
# The grammar of dice notation

What is dice notation, said without a reader: **Written** relates a text to the dice it stands for,
by what its parts are and what stands between them. The reader looks for one part after the other
and never goes back, so the question is whether it finds the parts of every such text.

* **It reads no others**: where it stops, the text it took and the blanks around it are in dice
  notation (`written_of_read`).
* **It reads them all** (`Written.exists_read`), since every part ends where the next one begins: no
  numeral runs into what is behind it (`WrittenModifier.endsNumeral`), and a number that stands
  alone has no mark behind it.

So reading a text whole succeeds exactly for dice notation, with those dice as the result, and fails
in one way for all other texts (`parse_iff_written`).
-/

namespace Tabletop.Dice

open Reader Text Numeral

/-! ## Dice notation -/

/-- **The modifier** behind the sides: nothing, or a numeral that blanks or its own sign keep apart
from them. -/
inductive WrittenModifier : List Char → ℤ → Prop
  | none : WrittenModifier [] 0
  | some {blanks numeral : List Char} {m : ℤ} (hblanks : isBlankText blanks = true)
    (hnumeral : Denotes numeral m) (hfits : Fits m)
    (happart : blanks ≠ [] ∨ numeral.head? = some '+' ∨ numeral.head? = some '-') :
    WrittenModifier (blanks ++ numeral) m

/-- **Dice notation**: a number alone, or count, mark, sides and modifier, with blanks between
them. -/
inductive Written : List Char → Dice → Prop
  | fixed {numeral : List Char} {n : ℤ} (hnumeral : Denotes numeral n) (hfits : Fits n) :
    Written numeral (fixed n)
  | dice {first blanks blanks' second modifier : List Char} {count sides : ℕ} {m : ℤ}
    (hcount : Denotes first count) (hcount_pos : 1 ≤ count) (hcount_le : count ≤ maxCount)
    (hblanks : isBlankText blanks = true) (hblanks' : isBlankText blanks' = true)
    (hsides : Denotes second sides) (hsides_pos : 1 ≤ sides) (hsides_le : sides ≤ maxSides)
    (hmodifier : WrittenModifier modifier m) :
    Written (first ++ (blanks ++ 'd' :: (blanks' ++ (second ++ modifier)))) ⟨count, sides, m⟩

variable {cs rest blanks numeral after : List Char} {n m : ℤ} {d : Dice}

/-! ## Where the parts end -/

/-- A modifier ends the number of sides before it, and so does blank text if there is none. -/
theorem WrittenModifier.endsNumeral (h : WrittenModifier cs m) (hafter : isBlankText after = true) :
    EndsNumeral (cs ++ after) := by
  cases h with
  | none => exact endsNumeral_blanks hafter
  | some hblanks hnumeral _ happart =>
    rw [List.append_assoc]
    exact (endsNumeral_append_iff hblanks hnumeral).mpr happart

theorem Written.endsInDigit (h : Written cs d) : EndsInDigit cs := by
  cases h with
  | fixed hnumeral => exact hnumeral.endsInDigit
  | @dice first blanks blanks' second modifier _ _ _ _ _ _ _ _ hsides _ _ hmodifier =>
    have hend : EndsInDigit (second ++ modifier) := by
      cases hmodifier with
      | none =>
        rw [List.append_nil]
        exact hsides.endsInDigit
      | some _ hnumeral => exact (hnumeral.endsInDigit.append _).append _
    exact (((hend.append blanks').append ['d']).append blanks).append first

/-! ## What is read is dice notation -/

/-- What is read behind the sides, and the blanks up to the end of the text. -/
theorem exists_writtenModifier (hends : EndsNumeral cs) (hrest : isBlankText (int cs).2 = true) :
    ∃ modifier after, cs = modifier ++ after ∧ WrittenModifier modifier ((int cs).1.getD 0) ∧
      isBlankText after = true := by
  cases hint : int cs with
  | mk found rest =>
    rw [hint] at hrest
    cases found with
    | none =>
      have hcs : rest = cs := by
        have hrestored : (int cs).2 = cs := strict_int.restores (by rw [hint])
        rwa [hint] at hrestored
      exact ⟨[], cs, rfl, .none, hcs ▸ hrest⟩
    | some m =>
      obtain ⟨numeral, htrim, hnumeral, hfits, -⟩ := int_eq_some_iff.mp hint
      obtain ⟨blanks, hblanks, hcs⟩ := exists_blanks cs
      rw [htrim] at hcs
      have happart := (endsNumeral_append_iff hblanks hnumeral).mp (hcs ▸ hends)
      refine ⟨blanks ++ numeral, rest, ?_, .some hblanks hnumeral hfits happart, hrest⟩
      rw [List.append_assoc]
      exact hcs

/-- **What is read is dice notation**, if only blanks are left behind it. -/
theorem written_of_read (h : read cs = (some d, rest)) (hrest : isBlankText rest = true) :
    Written (trim cs) d := by
  obtain ⟨core, after, hcs, hcore, hafter⟩ : ∃ core after, trimStart cs = core ++ after ∧
      Written core d ∧ isBlankText after = true := by
    obtain ⟨n, hn, rfl⟩ | ⟨count, sides, afterCount, afterMark, afterSides, hcount, hmark, hsides,
      hcount_mem, hsides_mem, rfl, rfl⟩ := read_eq_some h
    · obtain ⟨numeral, hcs, hnumeral, hfits, -⟩ := int_eq_some_iff.mp hn
      exact ⟨numeral, rest, hcs, .fixed hnumeral hfits, hrest⟩
    · -- each part is behind the blanks that its reader skipped
      obtain ⟨first, hcs, hfirst, -, -⟩ := int_eq_some_iff.mp hcount
      obtain ⟨blanks, hblanks, hafterCount⟩ := exists_blanks afterCount
      obtain ⟨blanks', hblanks', hafterMark⟩ := exists_blanks afterMark
      obtain ⟨second, hbehindMark, hsecond, -, hends⟩ := int_eq_some_iff.mp hsides
      obtain ⟨modifier, after, rfl, hmodifier, hafter⟩ := exists_writtenModifier hends hrest
      rw [(char_eq_some_iff.mp hmark).2] at hafterCount
      rw [hbehindMark] at hafterMark
      refine ⟨_, after, ?_, .dice hfirst hcount_mem.1 hcount_mem.2 hblanks hblanks' hsecond
        hsides_mem.1 hsides_mem.2 hmodifier, hafter⟩
      rw [hcs, hafterCount, hafterMark]
      simp only [List.append_assoc, List.cons_append]
  rwa [trim_of_endsInDigit hcore.endsInDigit hcs hafter]

/-! ## Dice notation is read -/

/-- A modifier is read behind the sides, up to the blanks at the end of the text. -/
theorem int_writtenModifier (h : WrittenModifier cs m) (hafter : isBlankText after = true) :
    (int (cs ++ after)).1.getD 0 = m ∧ (int (cs ++ after)).2 = after := by
  cases h with
  | none =>
    rw [List.nil_append, int_eq_none (noNumber_of_isBlankText hafter)]
    exact ⟨rfl, rfl⟩
  | @some blanks numeral _ hblanks hnumeral hfits happart =>
    have htrim : trimStart (blanks ++ numeral ++ after) = numeral ++ after := by
      rw [List.append_assoc, trimStart_append hblanks, trimStart_numeral hnumeral]
    rw [int_of_denotes htrim hnumeral hfits (endsNumeral_blanks hafter)]
    exact ⟨rfl, rfl⟩

/-- **Dice notation is read** up to the blanks behind it. -/
theorem Written.exists_read (h : Written (trim cs) d) :
    ∃ rest, read cs = (some d, rest) ∧ isBlankText rest = true := by
  obtain ⟨after, hafter, hcs⟩ := exists_trimStart_eq_trim_append cs
  generalize trim cs = core at h hcs
  cases h with
  | fixed hnumeral hfits =>
    have hint := int_of_denotes hcs hnumeral hfits (endsNumeral_blanks hafter)
    have hmark : char 'd' after = (none, after) :=
      char_eq_none (by rw [isBlankText_iff.mp hafter]; rintro ⟨⟩)
    exact ⟨after, read_number hint hmark, hafter⟩
  | @dice first blanks blanks' second modifier count sides m hcount hcount_pos hcount_le hblanks
      hblanks' hsides hsides_pos hsides_le hmodifier =>
    simp only [List.append_assoc, List.cons_append] at hcs
    obtain ⟨hcount_fits, hsides_fits, -⟩ :=
      (sound_of_limits hcount_le ⟨hsides_pos, hsides_le⟩ (by decide : Fits 0)).fits
    have hfirst := int_of_denotes hcs hcount hcount_fits
      (endsNumeral_of_isBlankText hblanks (endsNumeral_cons rfl _))
    have hmark : char 'd' (blanks ++ 'd' :: (blanks' ++ (second ++ (modifier ++ after)))) =
        (some 'd', blanks' ++ (second ++ (modifier ++ after))) :=
      char_eq_some (by rw [trimStart_append hblanks]; rfl)
    have hsecond : int (blanks' ++ (second ++ (modifier ++ after))) =
        (some (sides : ℤ), modifier ++ after) := by
      refine int_of_denotes ?_ hsides hsides_fits (hmodifier.endsNumeral hafter)
      rw [trimStart_append hblanks', trimStart_numeral hsides]
    obtain ⟨hvalue, hrest⟩ := int_writtenModifier hmodifier hafter
    have hread := read_dice hfirst hmark hsecond ⟨hcount_pos, hcount_le⟩ ⟨hsides_pos, hsides_le⟩
    rw [hvalue, hrest] at hread
    exact ⟨after, hread, hafter⟩

/-! ## Reading a whole text -/

/-- **A text is parsed** if dice are read from it and only blanks are left. -/
theorem parse_eq_ok_iff {source : String} : parse source = .ok d ↔
    ∃ rest, read source.toList = (some d, rest) ∧ isBlankText rest = true := by
  rw [parse]
  cases hread : read source.toList with
  | mk found rest =>
    cases found with
    | none => simp
    | some e =>
      cases hrest : isBlankText rest <;> simp [hrest]

/-- A text that is not read fails in one way. -/
theorem parse_eq_error_iff {source : String} :
    parse source = .error (.unreadable "dice" source) ↔ ¬ ∃ d, parse source = .ok d := by
  constructor
  · rintro h ⟨d, hd⟩
    rw [h] at hd
    cases hd
  · intro h
    unfold parse at h ⊢
    split at h
    · split at h
      · exact absurd ⟨_, rfl⟩ h
      · rename_i hrest
        rw [if_neg hrest]
    · rfl

/-- **A text is read as dice exactly if it is dice notation**, blanks around it apart, and then as
the dice that it stands for; all other texts fail as unreadable. -/
theorem parse_iff_written (source : String) :
    (∀ d, parse source = .ok d ↔ Written (trim source.toList) d) ∧
      (parse source = .error (.unreadable "dice" source) ↔
        ¬ ∃ d, Written (trim source.toList) d) := by
  have hok : ∀ d, parse source = .ok d ↔ Written (trim source.toList) d := by
    intro d
    rw [parse_eq_ok_iff]
    exact ⟨fun ⟨_, hread, hrest⟩ => written_of_read hread hrest, Written.exists_read⟩
  exact ⟨hok, by rw [parse_eq_error_iff, exists_congr hok]⟩

-- a sign in front of the count, a zero in front of its digits, and no blank in front of the modifier
example : parse " +02 d\n6-1 " = .ok ⟨2, 6, -1⟩ := by decide

end Tabletop.Dice
