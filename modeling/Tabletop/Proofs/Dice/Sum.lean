import Tabletop.Proofs.Dice.ReadBack
import Tabletop.Proofs.Value.Sum

/-!
# Sums of dice

Counts and modifiers add up, within their limits, and the sides are those of the dice that roll. Two
things are in question then.

* **How far may a penalty go?** One that is greater than the highest sum of the dice is restrained
  (`restrained`), so that the highest result is one. A penalty that is just as great is not, and the
  highest result is zero: sums come out as they should **exactly for all other modifiers**
  (`add_leaves_one_iff`).
* **Does the order matter?** If one of the two rolls, both sums are the same dice (`joined_comm`).
  If none does, the sums may differ in the sides that no die has, and look alike all the same. So
  the order never shows (`add_in_any_order`).
-/

namespace Tabletop.Dice

variable {d e s : Dice}

/-! ## What dice join to -/

/-- The modifier of a sum whose dice come to `highest` at most. -/
def restrained (highest modifier : ℤ) : ℤ :=
  if -modifier > highest then 1 - highest else modifier

/-- **The sum** of dice that can be added. -/
def joined (d e : Dice) : Dice :=
  let count := Min.min (d.count + e.count) maxCount
  let sides := if d.count > 0 then d.sides else e.sides
  ⟨count, sides, clamp (restrained (count * sides) (d.modifier + e.modifier))⟩

/-- Dice never set add nothing. -/
theorem add_of_not_isDefined (hd : d.isDefined = false) : d.add e = .ok e := by
  rw [add, hd]
  rfl

/-- Sound dice that are not defined are the undefined ones. -/
theorem Sound.eq_undefined_of_not_isDefined (hd : d.Sound) (hdef : d.isDefined = false) :
    d = undefined :=
  hd.eq_undefined (not_not.mp (mt hd.isDefined_iff.mpr (Bool.eq_false_iff.mp hdef)))

/-- Nor do they where they are added to others. -/
theorem Sound.add_of_right_not_isDefined (hd : d.Sound) (he : e.Sound)
    (hedef : e.isDefined = false) : d.add e = .ok d := by
  cases hddef : d.isDefined with
  | true =>
    rw [Dice.add, hddef, hedef]
    rfl
  | false =>
    rw [add_of_not_isDefined hddef, hd.eq_undefined_of_not_isDefined hddef,
      he.eq_undefined_of_not_isDefined hedef]

/-- Dice that can be added are joined. -/
theorem add_eq_joined (hd : d.isDefined = true) (he : e.isDefined = true)
    (h : d.canAdd e = true) : d.add e = .ok (d.joined e) := by
  have hsides : ¬ (d.count > 0 ∧ e.count > 0 ∧ d.sides ≠ e.sides) := fun ⟨hdc, hec, hne⟩ =>
    hne (canAdd_iff.mp h hdc hec)
  rw [add, hd, he]
  exact if_neg hsides

/-- Inversion of `add` for dice that were set. -/
theorem add_eq_ok (hd : d.isDefined = true) (he : e.isDefined = true) (h : d.add e = .ok s) :
    d.canAdd e = true ∧ s = d.joined e := by
  have hadd := exists_add_iff.mp ⟨s, h⟩
  rw [add_eq_joined hd he hadd] at h
  exact ⟨hadd, (Except.ok.inj h).symm⟩

/-- The sides of a sum are those of the dice that roll. -/
theorem sides_joined (h : d.canAdd e = true) :
    (0 < d.count → (d.joined e).sides = d.sides) ∧
      (0 < e.count → (d.joined e).sides = e.sides) := by
  refine ⟨fun hd => if_pos hd, fun he => ?_⟩
  by_cases hd : 0 < d.count
  · exact (if_pos hd).trans (canAdd_iff.mp h hd he)
  · exact if_neg hd

/-! ## How far a penalty may go -/

variable {highest modifier : ℤ}

/-- A penalty is restrained to what leaves one, unless it just cancels the dice. -/
theorem restrained_of_ne (h : modifier ≠ -highest) :
    restrained highest modifier = Max.max modifier (1 - highest) := by
  unfold restrained
  split <;> omega

/-- A penalty that just cancels the dice stays as it is. -/
theorem clamp_restrained_neg (hnonneg : 0 ≤ highest) (hle : highest ≤ maxStored) :
    clamp (restrained highest (-highest)) = -highest := by
  have hfits : Fits (-highest) := by
    unfold Fits minStored
    unfold maxStored at hle ⊢
    omega
  rw [restrained, if_neg (by omega), clamp_eq_self hfits]

/-- What is restrained leaves one, although it may be cut. -/
theorem one_le_add_clamp_max (hnonneg : 0 ≤ highest) (modifier : ℤ) :
    1 ≤ highest + clamp (Max.max modifier (1 - highest)) := by
  have hone : (1 : ℤ) ≤ maxStored := by decide
  have hleft : 1 - highest ≤ clamp (Max.max modifier (1 - highest)) :=
    le_clamp (by omega) (le_max_right _ _)
  omega

/-- **The modifier is restrained** as the bound asks, but for a penalty exactly as great as the
highest sum. -/
theorem clamp_restrained_iff (hnonneg : 0 ≤ highest) (hle : highest ≤ maxStored) :
    clamp (restrained highest modifier) = clamp (Max.max modifier (1 - highest)) ↔
      modifier ≠ -highest := by
  constructor
  · rintro h rfl
    have hone := one_le_add_clamp_max hnonneg (-highest)
    rw [← h, clamp_restrained_neg hnonneg hle, add_neg_cancel] at hone
    exact absurd hone (by decide)
  · exact fun h => congrArg clamp (restrained_of_ne h)

/-- The highest sum stays at one or above, but for that penalty. -/
theorem one_le_add_clamp_restrained_iff (hnonneg : 0 ≤ highest) (hle : highest ≤ maxStored) :
    1 ≤ highest + clamp (restrained highest modifier) ↔ modifier ≠ -highest := by
  constructor
  · rintro hone rfl
    rw [clamp_restrained_neg hnonneg hle, add_neg_cancel] at hone
    exact absurd hone (by decide)
  · intro h
    rw [restrained_of_ne h]
    exact one_le_add_clamp_max hnonneg modifier

/-- The highest sum of dice within the limits can be stored. -/
theorem Sound.diceMax_le (hd : d.Sound) : d.diceMax ≤ maxStored := by
  have hle : d.count * d.sides ≤ maxCount * maxSides := Nat.mul_le_mul hd.count_le hd.sides_le
  have hlimit : ((maxCount * maxSides : ℕ) : ℤ) ≤ maxStored := by decide
  calc d.diceMax = ((d.count * d.sides : ℕ) : ℤ) := (Nat.cast_mul _ _).symm
    _ ≤ ((maxCount * maxSides : ℕ) : ℤ) := by exact_mod_cast hle
    _ ≤ maxStored := hlimit

/-- **A sum of dice** has both counts up to the limit, the sides of the dice that roll, and both
modifiers, but no penalty that leaves no highest result of one: **exactly if** the modifiers do not
cancel the highest sum of the dice. If they do the highest result is zero. -/
theorem add_leaves_one_iff (hd : Obtained d) (he : Obtained e) (hddef : d.isDefined = true)
    (hedef : e.isDefined = true) (h : d.add e = .ok s) :
    s.count = Min.min (d.count + e.count) maxCount ∧
      (0 < d.count → s.sides = d.sides) ∧ (0 < e.count → s.sides = e.sides) ∧
      (s.modifier = clamp (Max.max (d.modifier + e.modifier) (1 - s.count * s.sides)) ↔
        d.modifier + e.modifier ≠ -(s.count * s.sides)) ∧
      (1 ≤ s.count * s.sides + s.modifier ↔ d.modifier + e.modifier ≠ -(s.count * s.sides)) ∧
      (d.modifier + e.modifier = -(s.count * s.sides) → s.count * s.sides + s.modifier = 0) := by
  have hsound : s.Sound := (Obtained.add hd he h).sound
  have hle : (s.count * s.sides : ℤ) ≤ maxStored := hsound.diceMax_le
  have hnonneg : (0 : ℤ) ≤ s.count * s.sides :=
    mul_nonneg (Int.natCast_nonneg _) (Int.natCast_nonneg _)
  obtain ⟨hadd, hjoined⟩ := add_eq_ok hddef hedef h
  have hmodifier :
      s.modifier = clamp (restrained (s.count * s.sides) (d.modifier + e.modifier)) := by
    rw [hjoined]
    rfl
  refine ⟨by rw [hjoined]; rfl, ?_, ?_, ?_, ?_, fun hcancel => ?_⟩
  · rw [hjoined]
    exact (sides_joined hadd).1
  · rw [hjoined]
    exact (sides_joined hadd).2
  · rw [hmodifier]
    exact clamp_restrained_iff hnonneg hle
  · rw [hmodifier]
    exact one_le_add_clamp_restrained_iff hnonneg hle
  · rw [hmodifier, hcancel, clamp_restrained_neg hnonneg hle, add_neg_cancel]

/-- Six thousand dice twice, with a penalty that takes away more than they can show. -/
theorem add_leaves_one_overburdened :
    Dice.make 6000 6 3 = .ok ⟨6000, 6, 3⟩ ∧ Dice.make 6000 6 (-90000) = .ok ⟨6000, 6, -90000⟩ ∧
      Dice.add ⟨6000, 6, 3⟩ ⟨6000, 6, -90000⟩ = .ok ⟨10000, 6, -59999⟩ ∧
      (-59999 : ℤ) = clamp (Max.max (3 + -90000) (1 - 10000 * 6)) ∧
      (1 : ℤ) ≤ 10000 * 6 + -59999 := by
  have hd : Dice.make 6000 6 3 = .ok ⟨6000, 6, 3⟩ := rfl
  have he : Dice.make 6000 6 (-90000) = .ok ⟨6000, 6, -90000⟩ := rfl
  have hadd : Dice.add ⟨6000, 6, 3⟩ ⟨6000, 6, -90000⟩ = .ok ⟨10000, 6, -59999⟩ := rfl
  obtain ⟨-, -, -, hmodifier, hone, -⟩ :=
    add_leaves_one_iff (.make (by decide) hd) (.make (by decide) he) rfl rfl hadd
  exact ⟨hd, he, hadd, hmodifier.mpr (by decide), hone.mpr (by decide)⟩

/-- **A penalty of exactly the highest sum** leaves nothing of a die with four sides, instead of
one. -/
theorem add_leaves_nothing :
    Dice.make 1 4 0 = .ok ⟨1, 4, 0⟩ ∧ (⟨1, 4, 0⟩ : Dice).isDefined = true ∧
      (fixed (-4)).isDefined = true ∧ Dice.add ⟨1, 4, 0⟩ (fixed (-4)) = .ok ⟨1, 4, -4⟩ ∧
      (-4 : ℤ) ≠ clamp (Max.max (0 + -4) (1 - 1 * 4)) ∧ ¬ (1 : ℤ) ≤ 1 * 4 + -4 := by
  decide

/-! ## The order of dice -/

/-- Where one of two dice rolls, their sum is the same in either order. -/
theorem joined_comm (h : d.canAdd e = true) (hroll : 0 < d.count ∨ 0 < e.count) :
    d.joined e = e.joined d := by
  have hsides : (if d.count > 0 then d.sides else e.sides) =
      if e.count > 0 then e.sides else d.sides := by
    have hsame := canAdd_iff.mp h
    split <;> split <;> omega
  unfold joined
  rw [hsides, Nat.add_comm d.count, Int.add_comm d.modifier]

/-- Numbers join to a number, with the sides of the second one. -/
theorem joined_of_no_dice (hd : d.count = 0) (he : e.count = 0) :
    d.joined e = ⟨0, e.sides, clamp (restrained 0 (d.modifier + e.modifier))⟩ := by
  simp [joined, hd, he]

/-- Fixed values are joined to a fixed value. -/
theorem Sound.joined_looksLike (hd : d.Sound) (he : e.Sound) (hddef : d.isDefined = true)
    (hedef : e.isDefined = true) (hdcount : d.count = 0) (hecount : e.count = 0) :
    (d.joined e).LooksLike (fixed (clamp (restrained 0 (d.modifier + e.modifier)))) := by
  have hadd : d.canAdd e = true := canAdd_iff.mpr fun hpos => absurd hdcount hpos.ne'
  have hsound : (d.joined e).Sound := hd.add he (add_eq_joined hddef hedef hadd)
  have hsides := he.isDefined_iff.mp hedef
  rw [joined_of_no_dice hdcount hecount] at hsound ⊢
  exact hsound.looksLike_modifier (hsound.isDefined_iff.mpr hsides) rfl

/-- **Sums in either order** look alike. -/
theorem Sound.add_looksLike (hd : d.Sound) (he : e.Sound) (h : d.canAdd e = true) :
    ∃ s t, d.add e = .ok s ∧ e.add d = .ok t ∧ s.LooksLike t ∧ s.count = t.count := by
  cases hddef : d.isDefined with
  | false =>
    exact ⟨e, e, add_of_not_isDefined hddef, he.add_of_right_not_isDefined hd hddef, .refl e, rfl⟩
  | true =>
    cases hedef : e.isDefined with
    | false =>
      exact ⟨d, d, hd.add_of_right_not_isDefined he hedef, add_of_not_isDefined hedef, .refl d, rfl⟩
    | true =>
      have h' : e.canAdd d = true := canAdd_comm d e ▸ h
      refine ⟨_, _, add_eq_joined hddef hedef h, add_eq_joined hedef hddef h', ?_,
        congrArg (Min.min · maxCount) (Nat.add_comm d.count e.count)⟩
      by_cases hroll : 0 < d.count ∨ 0 < e.count
      · rw [joined_comm h hroll]
        exact .refl _
      · -- no dice at all: both sums look like the same number
        have hdcount : d.count = 0 := by omega
        have hecount : e.count = 0 := by omega
        have hleft := hd.joined_looksLike he hddef hedef hdcount hecount
        have hright := he.joined_looksLike hd hedef hddef hecount hdcount
        rw [add_comm e.modifier] at hright
        exact hleft.trans hright.symm

/-- Dice that cannot be added fail to be added. -/
theorem exists_add_eq_error_iff : (∃ f, d.add e = .error f) ↔ d.canAdd e = false := by
  rw [Bool.eq_false_iff, ne_eq, ← exists_add_iff]
  cases d.add e <;> simp

/-- Dice cannot be added if both roll and their sides differ. -/
theorem canAdd_eq_false_iff : d.canAdd e = false ↔
    d.isDefined = true ∧ e.isDefined = true ∧ 0 < d.count ∧ 0 < e.count ∧ d.sides ≠ e.sides := by
  rw [Bool.eq_false_iff, ne_eq, canAdd_iff]
  constructor
  · intro h
    simp only [Classical.not_imp] at h
    obtain ⟨hd, he, hne⟩ := h
    exact ⟨isDefined_of_count hd, isDefined_of_count he, hd, he, hne⟩
  · rintro ⟨-, -, hd, he, hne⟩ h
    exact hne (h hd he)

/-- **The order of dice that are added never shows**, whatever was made, read or computed: both sums
fail, exactly for two dice that roll and have different sides, or both look alike and have as many
dice. Dice never set leave the others as they are. -/
theorem add_in_any_order (hd : Obtained d) (he : Obtained e) :
    ((∃ f, d.add e = .error f) ↔ ∃ f, e.add d = .error f) ∧
      ((∃ f, d.add e = .error f) ↔ d.isDefined = true ∧ e.isDefined = true ∧
        0 < d.count ∧ 0 < e.count ∧ d.sides ≠ e.sides) ∧
      ((∃ f, d.add e = .error f) ∨
        ∃ s t, d.add e = .ok s ∧ e.add d = .ok t ∧ s.LooksLike t ∧ s.count = t.count) ∧
      (d.isDefined = false → d.add e = .ok e ∧ e.add d = .ok e) := by
  refine ⟨?_, exists_add_eq_error_iff.trans canAdd_eq_false_iff, ?_, fun hdef => ?_⟩
  · rw [exists_add_eq_error_iff, exists_add_eq_error_iff, canAdd_comm]
  · cases hadd : d.canAdd e with
    | true => exact .inr (hd.sound.add_looksLike he.sound hadd)
    | false => exact .inl (exists_add_eq_error_iff.mpr hadd)
  · exact ⟨add_of_not_isDefined hdef, he.sound.add_of_right_not_isDefined hd.sound hdef⟩

/-- Two numbers, one of them given as no dice of eight sides, and dice that do not go together. -/
theorem add_in_any_order_numbers :
    Dice.make 0 8 (-3) = .ok ⟨0, 8, -3⟩ ∧
      Dice.add ⟨0, 8, -3⟩ (fixed 2) = .ok ⟨0, 1, 1⟩ ∧
      Dice.add (fixed 2) ⟨0, 8, -3⟩ = .ok ⟨0, 8, 1⟩ ∧
      LooksLike ⟨0, 1, 1⟩ ⟨0, 8, 1⟩ ∧
      (∃ f, Dice.add ⟨2, 6, 0⟩ ⟨1, 8, 0⟩ = .error f) ∧
      ∃ f, Dice.add ⟨1, 8, 0⟩ ⟨2, 6, 0⟩ = .error f := by
  have hmade : Dice.make 0 8 (-3) = .ok ⟨0, 8, -3⟩ := rfl
  have hleft : Dice.add ⟨0, 8, -3⟩ (fixed 2) = .ok ⟨0, 1, 1⟩ := rfl
  have hright : Dice.add (fixed 2) ⟨0, 8, -3⟩ = .ok ⟨0, 8, 1⟩ := rfl
  have htwo : Obtained (fixed 2) := .fixed (by decide)
  have hsixes : Dice.make 2 6 0 = .ok ⟨2, 6, 0⟩ := rfl
  have heights : Dice.make 1 8 0 = .ok ⟨1, 8, 0⟩ := rfl
  obtain ⟨-, -, hsums, -⟩ := add_in_any_order (.make (by decide) hmade) htwo
  obtain ⟨hsame, hclash, -⟩ :=
    add_in_any_order (.make (by decide) hsixes) (.make (by decide) heights)
  have hfails := hclash.mpr (by decide)
  refine ⟨hmade, hleft, hright, ?_, hfails, hsame.mp hfails⟩
  obtain ⟨f, hf⟩ | ⟨s, t, hs, ht, hlooks, -⟩ := hsums
  · cases hf
  · obtain rfl := Except.ok.inj hs
    obtain rfl := Except.ok.inj ht
    exact hlooks

end Tabletop.Dice
