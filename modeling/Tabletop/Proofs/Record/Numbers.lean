import Tabletop.Dice.Text
import Tabletop.Proofs.Json.Fields
import Tabletop.Proofs.Rational.Notation
import Tabletop.Record.Numbers

/-!
# Records of rationals and dice, restored

A record is checked again when it is restored. So it gives back what it was written from if that can
be stored at all and passes the checks:

* a rational's record holds the numbers of its mixed notation; a canonical rational is what they
  stand for (`rationalOf_signedParts`), and so is restored (`Canonical.decode_encode`);
* **Dice.Sound** are the dice that pass the checks, beside the undefined ones. They are what dice
  can be after any operations (`Dice.Obtained.sound`), and they are restored
  (`Dice.Sound.decode_encode`).
-/

namespace Tabletop

open Json Record

namespace Rational

/-! ## Rationals -/

theorem ofRational_eq (r : Rational) :
    ofRational r = .record [("leader", .int r.signedParts.1), ("nominator", .int r.signedParts.2.1),
      ("denominator", .int r.signedParts.2.2)] := by
  unfold ofRational signedParts truncated
  cases r.negative <;> by_cases hwhole : r.whole = 0 <;> simp [hwhole]

/-- The parts of a canonical value fit a record. -/
theorem mixedParts?_ofRational {r : Rational} (hr : r.Canonical) :
    mixedParts? (ofRational r) = some r.signedParts := by
  obtain ⟨hwhole, hnum, hden⟩ := hr.fits_signedParts
  rw [ofRational_eq, mixedParts?, fields?_record (by simp) (by simp)]
  simp [Fields.withDefault, Fields.required, get?_cons, int?_int hwhole, int?_int hnum,
    int?_int hden]

theorem Canonical.isSound_encode {r : Rational} (hr : r.Canonical) :
    (Recorded.encode r : Json).isSound = true := by
  obtain ⟨hwhole, hnum, hden⟩ := hr.fits_signedParts
  change (ofRational r).isSound = true
  rw [ofRational_eq, isSound_record]
  simp [isSound_int hwhole, isSound_int hnum, isSound_int hden]

/-- Parts with a denominator are a mixed number. -/
theorem rationalOf_eq_mixed (w n : ℤ) {d : ℤ} (hd : d ≠ 0) :
    rationalOf (w, n, d) = mixed w n d := by
  unfold rationalOf
  split
  · rename_i heq
    cases heq
    exact absurd rfl hd
  · rename_i heq
    cases heq
    rfl

/-- **A canonical value comes back** from its signed parts. -/
theorem rationalOf_signedParts {r : Rational} (hr : r.Canonical) :
    rationalOf r.signedParts = .ok r := by
  rcases canonical_iff.mp hr with rfl | h
  · rfl
  · have hden : (r.den : ℤ) ≠ 0 := by exact_mod_cast isDefined_iff.mp h.isDefined
    have hmixed : rationalOf r.signedParts = mixed r.signedParts.1 r.signedParts.2.1 r.den :=
      rationalOf_eq_mixed _ _ hden
    rw [hmixed, mixed, if_neg hden, h.signed_signedParts]

/-- **A canonical rational is restored** from its record. -/
theorem Canonical.decode_encode {r : Rational} (hr : r.Canonical) :
    Recorded.decode (Recorded.encode r) = .ok r := by
  change (do rationalOf (← shaped (mixedParts? (ofRational r)))) = Except.ok r
  rw [mixedParts?_ofRational hr]
  exact rationalOf_signedParts hr

end Rational

namespace Dice

/-! ## Dice -/

/-- Dice within the limits, beside those that were never set. -/
structure Sound (d : Dice) : Prop where
  count_le : d.count ≤ maxCount
  sides_le : d.sides ≤ maxSides
  modifier_fits : Fits d.modifier
  /-- what was never set is nothing at all -/
  eq_undefined : d.sides = 0 → d = undefined

/-- Dice that can be made, read and computed. -/
inductive Obtained : Dice → Prop
  | undefined : Obtained undefined
  | make {count sides modifier : ℤ} {d : Dice} (hmodifier : Fits modifier)
    (h : make count sides modifier = .ok d) : Obtained d
  | fixed {value : ℤ} (hvalue : Fits value) : Obtained (fixed value)
  | read {cs rest : List Char} {d : Dice} (h : read cs = (some d, rest)) : Obtained d
  | add {d e s : Dice} (hd : Obtained d) (he : Obtained e) (h : d.add e = .ok s) : Obtained s
  | multiply {d : Dice} (hd : Obtained d) (factor : ℤ) : Obtained (d.multiply factor)

/-- Inversion of `make`: count and sides within their limits. -/
theorem make_eq_ok {count sides modifier : ℤ} {d : Dice} (h : make count sides modifier = .ok d) :
    0 ≤ count ∧ count ≤ maxCount ∧ 0 < sides ∧ sides ≤ maxSides ∧
      d = ⟨count.toNat, sides.toNat, modifier⟩ := by
  unfold make at h
  split at h
  · cases h
  · split at h
    · cases h
    · split at h
      · cases h
      · split at h
        · cases h
        · cases h
          exact ⟨by omega, by omega, by omega, by omega, rfl⟩

/-- Dice within the limits are sound. -/
theorem sound_of_limits {count sides : ℕ} {modifier : ℤ} (hcount : count ≤ maxCount)
    (hsides : 1 ≤ sides ∧ sides ≤ maxSides) (hmodifier : Fits modifier) :
    Sound ⟨count, sides, modifier⟩ :=
  ⟨hcount, hsides.2, hmodifier, fun hzero => absurd hzero (Nat.one_le_iff_ne_zero.mp hsides.1)⟩

/-- Dice that are made are within the limits, with any modifier that can be stored. -/
theorem sound_of_make {count sides modifier value : ℤ} {d : Dice} (hvalue : Fits value)
    (h : make count sides modifier = .ok d) : ({ d with modifier := value } : Dice).Sound := by
  obtain ⟨-, hcount, hpos, hsides, rfl⟩ := make_eq_ok h
  have hcount' : count.toNat ≤ maxCount := by omega
  have hsides' : 1 ≤ sides.toNat ∧ sides.toNat ≤ maxSides := by omega
  exact sound_of_limits hcount' hsides' hvalue

theorem sound_fixed {value : ℤ} (hvalue : Fits value) : (fixed value).Sound :=
  ⟨Nat.zero_le _, Nat.one_le_of_lt (show 0 < maxSides by decide), hvalue, by rintro ⟨⟩⟩

/-- Sound dice are defined if they have sides. -/
theorem Sound.isDefined_iff {d : Dice} (hd : d.Sound) : d.isDefined = true ↔ d.sides ≠ 0 := by
  constructor
  · intro hdef hzero
    rw [hd.eq_undefined hzero] at hdef
    cases hdef
  · intro hsides
    simp only [isDefined, Bool.or_eq_true, decide_eq_true_eq]
    omega

/-- What is read as an integer can be stored. -/
theorem fits_of_int {cs rest : List Char} {n : ℤ} (h : Reader.int cs = (some n, rest)) :
    Fits n := by
  obtain ⟨-, -, -, hfits, -⟩ := Reader.int_eq_some_iff.mp h
  exact hfits

/-- **Inversion of `read`**: a number, or count, mark, sides and what is found behind them. -/
theorem read_eq_some {cs rest : List Char} {d : Dice} (h : read cs = (some d, rest)) :
    (∃ n, Reader.int cs = (some n, rest) ∧ d = fixed n) ∨
      ∃ (count sides : ℕ) (afterCount afterMark afterSides : List Char),
        Reader.int cs = (some (count : ℤ), afterCount) ∧
        Reader.char 'd' afterCount = (some 'd', afterMark) ∧
        Reader.int afterMark = (some (sides : ℤ), afterSides) ∧
        (1 ≤ count ∧ count ≤ maxCount) ∧ (1 ≤ sides ∧ sides ≤ maxSides) ∧
        d = ⟨count, sides, (Reader.int afterSides).1.getD 0⟩ ∧
        rest = (Reader.int afterSides).2 := by
  unfold read at h
  split at h
  · cases h
  · rename_i first afterFirst hfirst
    split at h
    · cases h
      exact .inl ⟨first, hfirst, rfl⟩
    · rename_i mark afterMark hmark
      split at h
      · cases h
      · rename_i sides afterSides hsides
        split at h
        · rename_i hpos
          split at h
          · cases h
          · rename_i made hmade
            obtain ⟨-, hcount_le, hsides_pos, hsides_le, rfl⟩ := make_eq_ok hmade
            obtain ⟨count, rfl⟩ := Int.eq_ofNat_of_zero_le hpos.le
            obtain ⟨sides, rfl⟩ := Int.eq_ofNat_of_zero_le hsides_pos.le
            obtain ⟨rfl, -⟩ := Reader.char_eq_some_iff.mp hmark
            cases h
            exact .inr ⟨count, sides, afterFirst, afterMark, afterSides, hfirst, hmark, hsides,
              ⟨by omega, by omega⟩, ⟨by omega, by omega⟩, rfl, rfl⟩
        · cases h

theorem sound_of_read {cs rest : List Char} {d : Dice} (h : read cs = (some d, rest)) :
    d.Sound := by
  obtain ⟨n, hn, rfl⟩ | ⟨count, sides, _, _, afterSides, -, -, -, hcount, hsides, rfl, -⟩ :=
    read_eq_some h
  · exact sound_fixed (fits_of_int hn)
  · refine sound_of_limits hcount.2 hsides ?_
    cases hmodifier : Reader.int afterSides with
    | mk modifier rest =>
      cases modifier with
      | none => exact (by decide : Fits 0)
      | some m => exact fits_of_int hmodifier

/-- Sums stay within the limits. -/
theorem Sound.add {d e s : Dice} (hd : d.Sound) (he : e.Sound) (h : d.add e = .ok s) : s.Sound := by
  unfold Dice.add at h
  split at h
  · cases h
    exact he
  · split at h
    · cases h
      exact hd
    · split at h
      · cases h
      · rename_i hddef hedef _
        have hdsides := hd.isDefined_iff.mp (by simpa using hddef)
        have hesides := he.isDefined_iff.mp (by simpa using hedef)
        cases h
        refine ⟨Nat.min_le_right _ _, ?_, fits_clamp _, fun hzero => ?_⟩
        · dsimp only
          split
          · exact hd.sides_le
          · exact he.sides_le
        · dsimp only at hzero
          split at hzero
          · exact absurd hzero hdsides
          · exact absurd hzero hesides

/-- Products stay within the limits. -/
theorem Sound.multiply {d : Dice} (hd : d.Sound) (factor : ℤ) : (d.multiply factor).Sound := by
  unfold Dice.multiply
  split
  · exact hd
  · rename_i h
    have hsides := hd.isDefined_iff.mp (by simpa using (not_or.mp h).1)
    exact ⟨Nat.min_le_right _ _, hd.sides_le, fits_clamp _, fun hzero => absurd hzero hsides⟩

/-- **Dice stay within the limits**, however they are made. -/
theorem Obtained.sound {d : Dice} (h : Obtained d) : d.Sound := by
  induction h with
  | undefined => exact ⟨by decide, by decide, by decide, fun _ => rfl⟩
  | make hmodifier h =>
    have hd := (make_eq_ok h).2.2.2.2
    have hsound := sound_of_make hmodifier h
    rw [hd] at hsound ⊢
    exact hsound
  | fixed hvalue => exact sound_fixed hvalue
  | read h => exact sound_of_read h
  | add _ _ h ihd ihe => exact ihd.add ihe h
  | multiply _ factor ih => exact ih.multiply factor

/-- Count and sides within the limits pass the checks again. -/
theorem Sound.make_eq {d : Dice} (hd : d.Sound) (hsides : d.sides ≠ 0) (modifier : ℤ) :
    Dice.make d.count d.sides modifier = .ok ⟨d.count, d.sides, modifier⟩ := by
  have hcount := hd.count_le
  have hle := hd.sides_le
  rw [Dice.make, if_neg (by omega), if_neg (by omega), if_neg (by omega), if_neg (by omega)]
  rfl

/-- A number with no mark behind it is read as a fixed value. -/
theorem read_number {cs rest : List Char} {n : ℤ} (hn : Reader.int cs = (some n, rest))
    (hmark : Reader.char 'd' rest = (none, rest)) : read cs = (some (fixed n), rest) := by
  rw [read, hn]
  simp only [hmark]

/-- **Count, mark and sides** within the limits are read as dice, with the modifier behind them. -/
theorem read_dice {cs afterCount afterMark afterSides : List Char} {count sides : ℕ}
    (hcount : Reader.int cs = (some (count : ℤ), afterCount))
    (hmark : Reader.char 'd' afterCount = (some 'd', afterMark))
    (hsides : Reader.int afterMark = (some (sides : ℤ), afterSides))
    (hcount_mem : 1 ≤ count ∧ count ≤ maxCount) (hsides_mem : 1 ≤ sides ∧ sides ≤ maxSides) :
    read cs =
      (some ⟨count, sides, (Reader.int afterSides).1.getD 0⟩, (Reader.int afterSides).2) := by
  have hpos : (count : ℤ) > 0 := by omega
  have hsound : Sound ⟨count, sides, 0⟩ := sound_of_limits hcount_mem.2 hsides_mem (by decide)
  have hmade : make count sides 0 = .ok ⟨count, sides, 0⟩ :=
    hsound.make_eq (Nat.one_le_iff_ne_zero.mp hsides_mem.1) 0
  rw [read, hcount]
  simp only [hmark, hsides, if_pos hpos, hmade]

/-- Sound dice come back from their parts. -/
theorem diceOf_parts {d : Dice} (hd : d.Sound) :
    diceOf (d.count, d.sides, d.modifier) = .ok d := by
  by_cases hsides : d.sides = 0
  · rw [hd.eq_undefined hsides]
    rfl
  · have hmade := hd.make_eq hsides d.modifier
    unfold diceOf
    split
    · rename_i heq
      simp at heq
      omega
    · rename_i heq
      cases heq
      exact hmade

/-- Count and sides within the limits can be stored. -/
theorem Sound.fits {d : Dice} (hd : d.Sound) :
    Fits (d.count : ℤ) ∧ Fits (d.sides : ℤ) ∧ Fits d.modifier := by
  have hcount := hd.count_le
  have hsides := hd.sides_le
  unfold maxCount at hcount
  unfold maxSides at hsides
  refine ⟨?_, ?_, hd.modifier_fits⟩ <;> unfold Fits minStored maxStored <;> omega

theorem Sound.isSound_encode {d : Dice} (hd : d.Sound) :
    (Recorded.encode d : Json).isSound = true := by
  obtain ⟨hcount, hsides, hmodifier⟩ := hd.fits
  exact isSound_record.mpr (by simp [isSound_int hcount, isSound_int hsides, isSound_int hmodifier])

theorem diceParts?_encode {d : Dice} (hd : d.Sound) :
    diceParts? (Recorded.encode d) = some ((d.count : ℤ), (d.sides : ℤ), d.modifier) := by
  obtain ⟨hcount, hsides, hmodifier⟩ := hd.fits
  change diceParts? (.record [("count", .int d.count), ("sides", .int d.sides),
    ("modifier", .int d.modifier)]) = _
  rw [diceParts?, fields?_record (by simp) (by simp)]
  simp [Fields.withDefault, Fields.required, get?_cons, int?_int hcount, int?_int hsides,
    int?_int hmodifier]

/-- **Dice within the limits are restored** from their record. -/
theorem Sound.decode_encode {d : Dice} (hd : d.Sound) :
    Recorded.decode (Recorded.encode d) = .ok d := by
  change (do diceOf (← shaped (diceParts? (Recorded.encode d)))) = Except.ok d
  rw [diceParts?_encode hd]
  exact diceOf_parts hd

end Dice

end Tabletop
