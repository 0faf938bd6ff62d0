import Tabletop.Proofs.Value.Text

/-!
# Dice read back

The text of dice does not tell all of them: dice that always come to the same number are written as
that number, and a number is read as a fixed value. Nothing that dice show for is lost by that:

* **LooksLike** relates dice of one text with the same lowest, highest and average result;
* dice that are not random look like the number they come to (`Sound.looksLike_settled`);
* so **every text of dice is read**, as dice that look like those that were written
  (`read_back_looksLike`), and as the same dice if a die with more than one side is among them.
-/

namespace Tabletop.Dice

variable {d e f : Dice}

/-- **Dice that look alike**: one text, and the same lowest, highest and average result. -/
structure LooksLike (d e : Dice) : Prop where
  text_eq : d.text = e.text
  min_eq : d.min = e.min
  max_eq : d.max = e.max
  average_eq : d.average = e.average

theorem LooksLike.refl (d : Dice) : d.LooksLike d := ⟨rfl, rfl, rfl, rfl⟩

theorem LooksLike.symm (h : d.LooksLike e) : e.LooksLike d :=
  ⟨h.text_eq.symm, h.min_eq.symm, h.max_eq.symm, h.average_eq.symm⟩

theorem LooksLike.trans (h : d.LooksLike e) (h' : e.LooksLike f) : d.LooksLike f :=
  ⟨h.text_eq.trans h'.text_eq, h.min_eq.trans h'.min_eq, h.max_eq.trans h'.max_eq,
    h.average_eq.trans h'.average_eq⟩

/-- Dice of one side, or none, have one sum. -/
theorem sums_of_one_side (h : d.count = 0 ∨ d.sides = 1) :
    d.diceMax = d.count ∧ (d.count : ℤ) * (d.sides + 1) / 2 = d.count := by
  unfold diceMax
  rcases h with h | h
  · rw [h]
    exact ⟨zero_mul _, by rw [Nat.cast_zero, zero_mul]; rfl⟩
  · rw [h]
    exact ⟨mul_one _, by omega⟩

/-- **Dice that are not random** look like the number they come to. -/
theorem Sound.looksLike_settled (hd : d.Sound) (hdef : d.isDefined = true)
    (h : d.isRandom = false) : d.LooksLike (fixed d.settled) := by
  obtain ⟨hmax, haverage⟩ := sums_of_one_side (hd.of_not_isRandom hdef h)
  obtain ⟨hmax', haverage'⟩ := sums_of_one_side (d := fixed d.settled) (.inl rfl)
  have hsettled : clamp ((fixed d.settled).count + (fixed d.settled).modifier) = d.settled := by
    change clamp (0 + d.settled) = d.settled
    rw [zero_add]
    exact clamp_eq_self (fits_clamp _)
  refine ⟨hd.text_of_not_isRandom hdef h, ?_, ?_, ?_⟩
  · rw [min, min, hsettled, settled]
  · rw [max, max, hmax, hmax', hsettled, settled]
  · rw [average, average, haverage, haverage', hsettled, settled]

/-- Without any dice, whatever their sides, it is the modifier that they look like. -/
theorem Sound.looksLike_modifier (hd : d.Sound) (hdef : d.isDefined = true)
    (hcount : d.count = 0) : d.LooksLike (fixed d.modifier) := by
  have hrandom : d.isRandom = false :=
    Bool.eq_false_iff.mpr fun h => absurd hcount (hd.isRandom_iff.mp h).1.ne'
  rw [← hd.settled_of_count_eq_zero hcount]
  exact hd.looksLike_settled hdef hrandom

/-- **The text of dice is read** as dice that look like them, whatever was made, read or computed;
dice with more than one side are read as they were. -/
theorem read_back_looksLike (h : Obtained d) (hdef : d.isDefined = true) :
    ∃ e, parse d.text = .ok e ∧ e.LooksLike d ∧ (0 < d.count → 1 < d.sides → e = d) := by
  have hd := h.sound
  cases hrandom : d.isRandom with
  | false =>
    refine ⟨_, hd.parse_text_of_not_isRandom hdef hrandom,
      (hd.looksLike_settled hdef hrandom).symm, fun hcount hsides => ?_⟩
    rw [hd.isRandom_iff.mpr ⟨hcount, hsides⟩] at hrandom
    cases hrandom
  | true =>
    obtain ⟨hcount, hsides⟩ := hd.isRandom_iff.mp hrandom
    exact ⟨d, parse_text hd hcount (by omega) (by omega), LooksLike.refl d, fun _ _ => rfl⟩

/-- Five dice of one side whose result cannot be stored, and the most dice with the least
modifier. -/
theorem read_back_looksLike_extremes :
    Dice.make 5 1 (maxStored - 2) = .ok ⟨5, 1, maxStored - 2⟩ ∧
      (∃ e, parse (⟨5, 1, maxStored - 2⟩ : Dice).text = .ok e ∧
        e.LooksLike ⟨5, 1, maxStored - 2⟩) ∧
      Dice.make 10000 1000000 minStored = .ok ⟨10000, 1000000, minStored⟩ ∧
      parse (⟨10000, 1000000, minStored⟩ : Dice).text = .ok ⟨10000, 1000000, minStored⟩ := by
  have hone : Dice.make 5 1 (maxStored - 2) = .ok ⟨5, 1, maxStored - 2⟩ := rfl
  have hmost : Dice.make 10000 1000000 minStored = .ok ⟨10000, 1000000, minStored⟩ := rfl
  obtain ⟨e, he, hlooks, -⟩ := read_back_looksLike (.make (by decide) hone) rfl
  obtain ⟨f, hf, -, hsame⟩ := read_back_looksLike (.make (by decide) hmost) rfl
  obtain rfl := hsame (by decide) (by decide)
  exact ⟨hone, ⟨e, he, hlooks⟩, hmost, hf⟩

end Tabletop.Dice
