import Tabletop.Proofs.Record.Numbers
import Tabletop.Proofs.Text.Reading
import Tabletop.Value.Basic

/-!
# Numbers and dice from their texts

* a **number** is read from its text (`parseNumber_plain`);
* **dice** are read from their text as dice of that text (`Dice.exists_parse_text`): they may be
  other ones, since dice that are not random are written as the number they always come to
  (`Dice.settled`).
-/

namespace Tabletop

open Reader Text

/-- **A number is read from its text.** -/
theorem parseNumber_plain {n : ℤ} (h : Fits n) : parseNumber (Numeral.plain n) = .ok n := by
  rw [parseNumber, trim_plain, Numeral.int?_plain h]

namespace Dice

/-- A fixed value is written as a number. -/
theorem text_fixed (value : ℤ) : (fixed value).text = Numeral.plain value := rfl

/-- An integer is parsed as a fixed value. -/
theorem parse_plain {value : ℤ} (h : Fits value) :
    parse (Numeral.plain value) = .ok (fixed value) := by
  have htrim : trimStart (Numeral.plain value).toList = (Numeral.plain value).toList ++ [] := by
    rw [← trimStart_plain value [], List.append_nil]
  have hint := int_plain htrim h (by rintro c ⟨⟩)
  rw [parse, read_number hint rfl]
  rfl

/-- What is written behind count and sides. -/
def modifierText (d : Dice) : List Char :=
  if d.modifier = 0 then [] else ' ' :: (Numeral.signed d.modifier).toList

/-- The modifier is read back from its text, and all of it is read. -/
theorem read_modifierText {d : Dice} (h : Fits d.modifier) :
    (int d.modifierText).1.getD 0 = d.modifier ∧ (int d.modifierText).2 = [] := by
  unfold modifierText
  split
  · rename_i hzero
    rw [hzero]
    exact ⟨rfl, rfl⟩
  · have hstart : trimStart (' ' :: (Numeral.signed d.modifier).toList) =
        (Numeral.signed d.modifier).toList ++ [] := by
      rw [trimStart_space, trimStart_signed, List.append_nil]
    rw [int_signed hstart h (by rintro c ⟨⟩)]
    exact ⟨rfl, rfl⟩

/-- **Dice that roll** are read from their text. -/
theorem parse_text {d : Dice} (hd : d.Sound) (hcount : 0 < d.count) (hpos : d.sides ≠ 0)
    (hsides : d.sides ≠ 1) : parse d.text = .ok d := by
  obtain ⟨hfits, hsidesFit, hmodifier⟩ := hd.fits
  have hdef : (!d.isDefined) = false := by rw [hd.isDefined_iff.mpr hpos]; rfl
  have htext : d.text.toList =
      Numeral.digits d.count ++ 'd' :: (Numeral.digits d.sides ++ d.modifierText) := by
    have hmark : "d".toList = ['d'] := rfl
    have hspace : " ".toList = [' '] := rfl
    rw [text, hdef, if_neg Bool.false_ne_true, if_neg hcount.ne', if_neg hsides]
    simp only [Numeral.natural, String.toList_append, String.toList_ofList, hmark, modifierText]
    split
    · simp
    · simp [hspace]
  have hend : Numeral.EndsNumeral d.modifierText := by
    unfold modifierText
    split
    · rintro c ⟨⟩
    · exact Numeral.endsNumeral_cons rfl _
  have hfirst := int_digits (trimStart_digits d.count ('d' :: (Numeral.digits d.sides ++
    d.modifierText))) hfits (Numeral.endsNumeral_cons rfl _)
  have hmark : char 'd' ('d' :: (Numeral.digits d.sides ++ d.modifierText)) =
      (some 'd', Numeral.digits d.sides ++ d.modifierText) := char_eq_some rfl
  have hsecond := int_digits (trimStart_digits d.sides d.modifierText) hsidesFit hend
  obtain ⟨hvalue, hrest⟩ := read_modifierText hmodifier
  have hread := read_dice hfirst hmark hsecond ⟨hcount, hd.count_le⟩
    ⟨Nat.one_le_iff_ne_zero.mpr hpos, hd.sides_le⟩
  rw [hvalue, hrest] at hread
  rw [parse, htext, hread]
  rfl

/-- **Sound dice are random** if there is a die with more than one side. -/
theorem Sound.isRandom_iff {d : Dice} (hd : d.Sound) :
    d.isRandom = true ↔ 0 < d.count ∧ 1 < d.sides := by
  by_cases hsides : d.sides = 0
  · rw [hd.eq_undefined hsides]
    decide
  · simp only [isRandom, hd.isDefined_iff.mpr hsides, Bool.true_and, Bool.and_eq_true,
      decide_eq_true_eq]
    omega

/-- Dice that are not random are no dice at all, or dice of one side. -/
theorem Sound.of_not_isRandom {d : Dice} (hd : d.Sound) (hdef : d.isDefined = true)
    (h : d.isRandom = false) : d.count = 0 ∨ d.sides = 1 := by
  have hsides := hd.isDefined_iff.mp hdef
  have hrandom := mt hd.isRandom_iff.mpr (Bool.eq_false_iff.mp h)
  omega

/-- What dice that are not random always come to. -/
def settled (d : Dice) : ℤ := clamp (d.count + d.modifier)

/-- Without dice the settled value is the modifier. -/
theorem Sound.settled_of_count_eq_zero {d : Dice} (hd : d.Sound) (hcount : d.count = 0) :
    d.settled = d.modifier := by
  rw [settled, hcount, Nat.cast_zero, zero_add, clamp_eq_self hd.modifier_fits]

/-- Dice that are not random are written as their settled value. -/
theorem Sound.text_of_not_isRandom {d : Dice} (hd : d.Sound) (hdef : d.isDefined = true)
    (h : d.isRandom = false) : d.text = Numeral.plain d.settled := by
  have hundefined : (!d.isDefined) = false := by rw [hdef]; rfl
  rw [text, hundefined, if_neg Bool.false_ne_true]
  by_cases hcount : d.count = 0
  · rw [if_pos hcount, hd.settled_of_count_eq_zero hcount]
  · have hsides := (hd.of_not_isRandom hdef h).resolve_left hcount
    rw [if_neg hcount, if_pos hsides, settled]

/-- **Dice that are not random** are read from their text as the number they come to. -/
theorem Sound.parse_text_of_not_isRandom {d : Dice} (hd : d.Sound) (hdef : d.isDefined = true)
    (h : d.isRandom = false) : parse d.text = .ok (fixed d.settled) := by
  rw [hd.text_of_not_isRandom hdef h]
  exact parse_plain (fits_clamp _)

/-- **Dice are read from their text** as dice of the same text. -/
theorem exists_parse_text {d : Dice} (hd : d.Sound) (hdef : d.isDefined = true) :
    ∃ e, parse d.text = .ok e ∧ e.text = d.text := by
  cases hrandom : d.isRandom with
  | false =>
    refine ⟨_, hd.parse_text_of_not_isRandom hdef hrandom, ?_⟩
    rw [text_fixed, hd.text_of_not_isRandom hdef hrandom]
  | true =>
    obtain ⟨hcount, hsides⟩ := hd.isRandom_iff.mp hrandom
    exact ⟨d, parse_text hd hcount (by omega) (by omega), rfl⟩

end Dice

end Tabletop
