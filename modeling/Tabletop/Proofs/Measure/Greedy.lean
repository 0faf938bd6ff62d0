import Mathlib.Data.Sign.Basic
import Mathlib.Tactic.Linarith
import Tabletop.Proofs.Measure.Arithmetic
import Tabletop.Proofs.Rational.Operation

/-!
# Greedy slots

A total is spread over units by a loop that counts what is left in one unit after the other, keeps
the whole part or everything, and hands the rest on. What do the slots look like in the end?

* **IsPart** numbers lie between zero and another one. The whole part and the fraction of a number
  are parts of it (`InLowestTerms.isPart_truncated`, …), so whatever the loop handles is a part of
  the total, with its sign;
* **UnitSet.IsGreedy** says what the slots hold, by their places and with no regard to the loop: one
  step of the loop puts a slot in front of greedy slots (`IsGreedy.cons`), and so **the slots are
  greedy** (`UnitSet.isGreedy_spread`);
* totals are in lowest terms (`UnitSet.inLowestTerms_asBase`), so that slots spread from a total
  have that very total, and **spreading it once more changes nothing**
  (`Measure.simplification_canonical`).
-/

namespace Tabletop

open Rational

namespace Rational

/-! ## Parts of a number -/

/-- A part of a number lies between zero and it. -/
def IsPart (p q : ℚ) : Prop := 0 ≤ p ∧ p ≤ q ∨ q ≤ p ∧ p ≤ 0

namespace IsPart

variable {p q r : ℚ}

theorem refl (q : ℚ) : IsPart q q := (le_total 0 q).imp (⟨·, le_rfl⟩) (⟨le_rfl, ·⟩)

/-- A part of a part is a part. -/
theorem trans (h : IsPart p q) (h' : IsPart q r) : IsPart p r := by
  unfold IsPart at *
  rcases h with ⟨hp, hpq⟩ | ⟨hqp, hp⟩ <;> rcases h' with ⟨hq, hqr⟩ | ⟨hrq, hq⟩
  · exact .inl ⟨hp, by linarith⟩
  · exact .inr ⟨by linarith, by linarith⟩
  · exact .inl ⟨by linarith, by linarith⟩
  · exact .inr ⟨by linarith, hp⟩

/-- Scaling keeps parts, if it keeps signs. -/
theorem mul_right (h : IsPart p q) {c : ℚ} (hc : 0 ≤ c) : IsPart (p * c) (q * c) :=
  h.imp (fun h => ⟨mul_nonneg h.1 hc, mul_le_mul_of_nonneg_right h.2 hc⟩)
    fun h => ⟨mul_le_mul_of_nonneg_right h.1 hc, mul_nonpos_of_nonpos_of_nonneg h.2 hc⟩

theorem abs_le_abs (h : IsPart p q) : |p| ≤ |q| := by
  rcases h with ⟨hp, hpq⟩ | ⟨hqp, hp⟩
  · rwa [abs_of_nonneg hp, abs_of_nonneg (hp.trans hpq)]
  · rw [abs_of_nonpos hp, abs_of_nonpos (hqp.trans hp)]
    exact neg_le_neg hqp

/-- A part other than zero has the sign of the whole. -/
theorem sign_eq (h : IsPart p q) (hp : p ≠ 0) : SignType.sign p = SignType.sign q := by
  rcases h with ⟨hp', hpq⟩ | ⟨hqp, hp'⟩
  · have hpos : 0 < p := lt_of_le_of_ne hp' hp.symm
    rw [sign_pos hpos, sign_pos (hpos.trans_le hpq)]
  · have hneg : p < 0 := lt_of_le_of_ne hp' hp
    rw [sign_neg hneg, sign_neg (hqp.trans_lt hneg)]

end IsPart

namespace InLowestTerms

variable {r : Rational}

/-- A value in lowest terms is its whole part and a proper fraction of the same sign. -/
theorem toRat_eq_truncated_add (h : r.InLowestTerms) :
    ∃ f : ℚ, 0 ≤ f ∧ f < 1 ∧
      (r.negative = false ∧ (r.truncated : ℚ) = r.whole ∧ r.toRat = r.truncated + f ∨
        r.negative = true ∧ (r.truncated : ℚ) = -r.whole ∧ r.toRat = r.truncated - f) := by
  have hden : (0 : ℚ) < r.den := by exact_mod_cast Nat.zero_lt_of_lt h.proper
  have hlt : (r.num : ℚ) < r.den := by exact_mod_cast h.proper
  refine ⟨r.num / r.den, by positivity, (div_lt_one hden).mpr hlt, ?_⟩
  rw [toRat_eq_parts h.isDefined, truncated]
  cases hneg : r.negative with
  | false => exact .inl ⟨rfl, by simp, by simp⟩
  | true => exact .inr ⟨rfl, by simp, by simp; ring⟩

/-- The whole part is a part of the number, whatever sign it has. -/
theorem isPart_truncated (h : r.InLowestTerms) : IsPart r.truncated r.toRat := by
  obtain ⟨f, hf, -, ⟨-, hwhole, heq⟩ | ⟨-, hwhole, heq⟩⟩ := h.toRat_eq_truncated_add <;>
    have hnonneg : (0 : ℚ) ≤ r.whole := Nat.cast_nonneg _
  · exact .inl ⟨by linarith, by linarith⟩
  · exact .inr ⟨by linarith, by linarith⟩

/-- What the whole part leaves is a part of the number, too. -/
theorem isPart_sub_truncated (h : r.InLowestTerms) : IsPart (r.toRat - r.truncated) r.toRat := by
  obtain ⟨f, hf, -, ⟨-, hwhole, heq⟩ | ⟨-, hwhole, heq⟩⟩ := h.toRat_eq_truncated_add <;>
    have hnonneg : (0 : ℚ) ≤ r.whole := Nat.cast_nonneg _
  · exact .inl ⟨by linarith, by linarith⟩
  · exact .inr ⟨by linarith, by linarith⟩

/-- The whole part leaves less than one. -/
theorem abs_sub_truncated_lt (h : r.InLowestTerms) : |r.toRat - r.truncated| < 1 := by
  obtain ⟨f, hf, hf', ⟨-, -, heq⟩ | ⟨-, -, heq⟩⟩ := h.toRat_eq_truncated_add <;>
    rw [heq, abs_lt] <;> exact ⟨by linarith, by linarith⟩

theorem natAbs_truncated (r : Rational) : r.truncated.natAbs = r.whole := by
  unfold truncated
  split <;> omega

/-- The whole part is never cut. -/
theorem toRat_ofInt_truncated (h : r.InLowestTerms) : (ofInt r.truncated).toRat = r.truncated := by
  apply toRat_ofInt
  rw [natAbs_truncated]
  exact h.whole_fits.2

end InLowestTerms

/-- What is scaled and nowhere cut is in lowest terms. -/
theorem inLowestTerms_scaleBy {r : Rational} (hr : r.isDefined) {n d : ℤ} (hd : d ≠ 0)
    (h : Lossless (r.scaleSteps n d)) : (r.scaleBy n d).InLowestTerms := by
  obtain ⟨hmul, hdiv, -⟩ := by simpa only [scaleSteps, lossless_cons] using h
  rw [scaleBy_eq_ofRat hr n hd hmul, inLowestTerms_ofRat_iff]
  exact .inl hdiv.2

/-- Integers are stored in lowest terms, cut ones too. -/
theorem inLowestTerms_ofInt (n : ℤ) : (ofInt n).InLowestTerms := by
  rw [ofInt_eq_ofRat, inLowestTerms_ofRat_iff]
  exact .inl (by rw [Rat.den_intCast]; decide)

/-- A sum in which nothing is cut stays in lowest terms; an undefined value adds nothing. -/
theorem InLowestTerms.add {r s : Rational} (hr : r.InLowestTerms)
    (h : Storable (r.toRat + s.toRat)) : (r.add s).InLowestTerms := by
  cases hs : s.isDefined with
  | false => simpa [Rational.add, hr.isDefined, hs] using hr
  | true =>
    rw [add_eq_ofRat hr.isDefined hs, inLowestTerms_ofRat_iff]
    exact .inl h.2

/-- In lowest terms a number has one value. -/
theorem InLowestTerms.ext {r s : Rational} (hr : r.InLowestTerms) (hs : s.InLowestTerms)
    (h : r.toRat = s.toRat) : r = s := by
  rw [hr.eq_ofRat, hs.eq_ofRat, h]

end Rational

/-! ## Greedy slots -/

namespace MeasureUnit

variable {u : MeasureUnit}

/-- The size of a unit in base units. -/
def size (u : MeasureUnit) : ℚ := u.multiplier / u.divisor

theorem size_pos (hu : 0 < u.multiplier ∧ 0 < u.divisor) : 0 < u.size :=
  div_pos (by exact_mod_cast hu.1) (by exact_mod_cast hu.2)

/-- Base units are counted in a unit exactly. -/
theorem toRat_fromBase (hu : 0 < u.multiplier ∧ 0 < u.divisor) {total : Rational}
    (h : Lossless (total.scaleSteps u.divisor u.multiplier)) :
    (u.fromBase total).toRat = total.toRat / u.size := by
  rw [fromBase, toRat_scaleBy hu.1.ne' h, size, div_div_eq_mul_div]

/-- An amount of a unit is told in base units exactly. -/
theorem toRat_asBase (hu : 0 < u.multiplier ∧ 0 < u.divisor) {amount : Rational}
    (h : Lossless (amount.scaleSteps u.multiplier u.divisor)) :
    (u.asBase amount).toRat = amount.toRat * u.size := by
  rw [asBase, toRat_scaleBy hu.2.ne' h, size, mul_div_assoc]

theorem isDefined_asBase (hu : 0 < u.multiplier ∧ 0 < u.divisor) (amount : Rational) :
    (u.asBase amount).isDefined = amount.isDefined :=
  isDefined_scaleBy amount u.multiplier hu.2.ne'

end MeasureUnit

namespace UnitSet

/-- What the slots before a place leave of a total, in base units. -/
def leftAt (units : List MeasureUnit) (slots : Slots) (total : ℚ) (place : ℕ) : ℚ :=
  total - exactTotal units (slots.take place)

/-- **Greedy slots** of a total, of which the one at `last` is the last that is filled. -/
structure IsGreedy (level : ℤ) (units : List MeasureUnit) (total : ℚ) (slots : Slots)
    (last : ℕ) : Prop where
  length_eq : slots.length = units.length
  /-- the last slot holds all that is left -/
  holds_rest : ∃ (u : MeasureUnit) (amount : Rational), units[last]? = some u ∧
    slots[last]? = some (some amount) ∧ amount.toRat = leftAt units slots total last / u.size
  empty_behind : ∀ place, last < place → slots[place]?.join = none
  /-- any other slot is empty or holds a whole number -/
  whole_before : ∀ place < last, ∀ amount : Rational, slots[place]? = some (some amount) →
    ∃ n : ℤ, n ≠ 0 ∧ amount = .ofInt n ∧ amount.toRat = n
  inLowestTerms : ∀ amount, some amount ∈ slots → amount.InLowestTerms
  /-- a slot holds a part of the total -/
  isPart : ∀ (place : ℕ) (u : MeasureUnit) (amount : Rational), units[place]? = some u →
    slots[place]? = some (some amount) → IsPart (amount.toRat * u.size) total
  /-- a slot holds less than one of the unit before -/
  lt_size : ∀ (place : ℕ) (u v : MeasureUnit) (amount : Rational), units[place]? = some u →
    units[place + 1]? = some v → slots[place + 1]? = some (some amount) →
    |amount.toRat| * v.size < u.size
  /-- what units before the last slot do not keep is too fine for them -/
  too_fine : ∀ place < last, ∀ u v : MeasureUnit, units[place]? = some u →
    units[place + 1]? = some v →
    threshold level u v ≤ ((leftAt units slots total place / u.size).den : ℤ)
  /-- the last slot is that of the last unit, or its unit is fine enough -/
  stops : last + 1 = units.length ∨
    ∃ u v : MeasureUnit, units[last]? = some u ∧ units[last + 1]? = some v ∧
      ((leftAt units slots total last / u.size).den : ℤ) < threshold level u v

namespace IsGreedy

variable {level : ℤ} {units rest : List MeasureUnit} {unit next : MeasureUnit} {total left : ℚ}
  {slots : Slots} {slot : Option Rational} {last : ℕ}

theorem leftAt_zero : leftAt units slots total 0 = total := by
  rw [leftAt, List.take_zero]
  cases units <;> exact sub_zero total

/-- Behind the first slot, that much less is left. -/
theorem leftAt_succ (h : left = total - slotAmount slot * unit.size) (place : ℕ) :
    leftAt (unit :: units) (slot :: slots) total (place + 1) = leftAt units slots left place := by
  rw [leftAt, List.take_succ_cons, exactTotal, h, leftAt, MeasureUnit.size, mul_div_assoc]
  ring

/-- **A unit that keeps all** leaves nothing to the others. -/
theorem keep {amount : Rational} (hterms : amount.InLowestTerms) (hsize : 0 < unit.size)
    (hamount : amount.toRat = total / unit.size)
    (hstops : units = [] ∨ ∃ next rest, units = next :: rest ∧
      (amount.toRat.den : ℤ) < threshold level unit next) :
    IsGreedy level (unit :: units) total (some amount :: units.map fun _ => none) 0 where
  length_eq := by simp
  holds_rest := ⟨unit, amount, rfl, rfl, by rw [leftAt_zero, hamount]⟩
  empty_behind := by
    rintro (_ | place) hplace
    · cases hplace
    · rw [List.getElem?_cons_succ, List.getElem?_map]
      cases units[place]? <;> rfl
  whole_before := by rintro place ⟨⟩
  inLowestTerms amount' ha := by
    rcases List.mem_cons.mp ha with heq | hrest
    · obtain rfl := Option.some.inj heq
      exact hterms
    · simp at hrest
  isPart := by
    rintro (_ | place) u amount' hu hslot
    · cases hu
      cases hslot
      rw [hamount, div_mul_cancel₀ _ hsize.ne']
      exact .refl total
    · rw [List.getElem?_cons_succ, List.getElem?_map] at hslot
      cases hplace : units[place]? <;> rw [hplace] at hslot <;> cases hslot
  lt_size := by
    intro place u v amount' _ _ hslot
    rw [List.getElem?_cons_succ, List.getElem?_map] at hslot
    cases hplace : units[place]? <;> rw [hplace] at hslot <;> cases hslot
  too_fine := by rintro place ⟨⟩
  stops := by
    rcases hstops with rfl | ⟨next, rest, rfl, hfine⟩
    · exact .inl rfl
    · refine .inr ⟨unit, next, rfl, rfl, ?_⟩
      rwa [leftAt_zero, ← hamount]

/-- **A unit that hands a part on**: what it keeps is a whole number, what is left is less than one
of it, and too fine for it. -/
theorem cons (h : IsGreedy level (next :: rest) left slots last)
    (hleft : left = total - slotAmount slot * unit.size)
    (hslot : ∀ amount ∈ slot, IsPart (amount.toRat * unit.size) total ∧
      ∃ n : ℤ, n ≠ 0 ∧ amount = .ofInt n ∧ amount.toRat = n)
    (hpart : IsPart left total) (hlt : |left| < unit.size)
    (hfine : threshold level unit next ≤ ((total / unit.size).den : ℤ))
    (hnext : ∀ u ∈ next :: rest, 0 < u.size) :
    IsGreedy level (unit :: next :: rest) total (slot :: slots) (last + 1) where
  length_eq := congrArg (· + 1) h.length_eq
  holds_rest := by
    obtain ⟨u, amount, hu, hamount, heq⟩ := h.holds_rest
    exact ⟨u, amount, hu, hamount, by rw [leftAt_succ hleft, heq]⟩
  empty_behind := by
    rintro (_ | place) hplace
    · cases hplace
    · exact h.empty_behind place (by omega)
  whole_before := by
    rintro (_ | place) hplace amount hamount
    · exact (hslot amount (Option.some.inj hamount)).2
    · exact h.whole_before place (by omega) amount hamount
  inLowestTerms amount ha := by
    rcases List.mem_cons.mp ha with heq | hrest
    · obtain ⟨-, n, -, rfl, -⟩ := hslot amount heq.symm
      exact inLowestTerms_ofInt n
    · exact h.inLowestTerms amount hrest
  isPart := by
    rintro (_ | place) u amount hu hamount
    · cases hu
      exact (hslot amount (Option.some.inj hamount)).1
    · exact (h.isPart place u amount hu hamount).trans hpart
  lt_size := by
    rintro (_ | place) u v amount hu hv hamount
    · -- the next slot holds a part of what is left
      cases hu
      have hpart := (h.isPart 0 v amount hv hamount).abs_le_abs
      have hpos : 0 < v.size := hnext v (List.mem_of_getElem? (i := 0) hv)
      rw [abs_mul, abs_of_pos hpos] at hpart
      exact hpart.trans_lt hlt
    · exact h.lt_size place u v amount hu hv hamount
  too_fine := by
    rintro (_ | place) hplace u v hu hv
    · cases hu
      cases hv
      rwa [leftAt_zero]
    · rw [leftAt_succ hleft]
      exact h.too_fine place (by omega) u v hu hv
  stops := by
    rcases h.stops with hend | ⟨u, v, hu, hv, hden⟩
    · exact .inl (congrArg (· + 1) hend)
    · exact .inr ⟨u, v, hu, hv, by rwa [leftAt_succ hleft]⟩

/-- A unit that keeps a whole part hands the fraction on. -/
theorem cons_whole {amount : Rational} (hterms : amount.InLowestTerms) (hwhole : amount.whole > 0)
    (hsize : 0 < unit.size) (hamount : amount.toRat = total / unit.size)
    (hfine : threshold level unit next ≤ (amount.den : ℤ)) (hnext : ∀ u ∈ next :: rest, 0 < u.size)
    (h : IsGreedy level (next :: rest) ((amount.toRat - amount.truncated) * unit.size) slots last) :
    IsGreedy level (unit :: next :: rest) total (some (.ofInt amount.truncated) :: slots)
      (last + 1) := by
  have htotal : amount.toRat * unit.size = total := by rw [hamount, div_mul_cancel₀ _ hsize.ne']
  have hkept := hterms.toRat_ofInt_truncated
  refine h.cons ?_ (fun kept hmem => ?_) ?_ ?_ ?_ hnext
  · rw [slotAmount, hkept, sub_mul, htotal]
  · obtain rfl := Option.some.inj hmem
    refine ⟨?_, amount.truncated, ?_, rfl, hkept⟩
    · rw [hkept, ← htotal]
      exact hterms.isPart_truncated.mul_right hsize.le
    · rw [← Int.natAbs_ne_zero, InLowestTerms.natAbs_truncated]
      omega
  · rw [← htotal]
    exact hterms.isPart_sub_truncated.mul_right hsize.le
  · rw [abs_mul, abs_of_pos hsize]
    exact mul_lt_of_lt_one_left hsize hterms.abs_sub_truncated_lt
  · rwa [← hamount, hterms.num_toRat.2]

/-- A unit of which there is less than one hands all on. -/
theorem cons_none {amount : Rational} (hterms : amount.InLowestTerms) (hwhole : amount.whole = 0)
    (hsize : 0 < unit.size) (hamount : amount.toRat = total / unit.size)
    (hfine : threshold level unit next ≤ (amount.den : ℤ)) (hnext : ∀ u ∈ next :: rest, 0 < u.size)
    (h : IsGreedy level (next :: rest) total slots last) :
    IsGreedy level (unit :: next :: rest) total (none :: slots) (last + 1) := by
  have htotal : amount.toRat * unit.size = total := by rw [hamount, div_mul_cancel₀ _ hsize.ne']
  have hlt := hterms.abs_sub_truncated_lt
  have hzero : amount.truncated = 0 := by
    rw [← Int.natAbs_eq_zero, InLowestTerms.natAbs_truncated, hwhole]
  rw [hzero, Int.cast_zero, sub_zero] at hlt
  refine h.cons ?_ (fun kept hmem => ?_) (.refl total) ?_ ?_ hnext
  · rw [slotAmount, zero_mul, sub_zero]
  · cases hmem
  · rw [← htotal, abs_mul, abs_of_pos hsize]
    exact mul_lt_of_lt_one_left hsize hlt
  · rwa [← hamount, hterms.num_toRat.2]

/-- **Signs**: every amount other than zero has the sign of the total. -/
theorem sign_eq (h : IsGreedy level units total slots last) (hpos : ∀ u ∈ units, 0 < u.size)
    {amount : Rational} (ha : some amount ∈ slots) (hne : amount.toRat ≠ 0) :
    SignType.sign amount.toRat = SignType.sign total := by
  obtain ⟨place, hplace⟩ := List.mem_iff_getElem?.mp ha
  have hlt : place < units.length := h.length_eq ▸ (List.getElem?_eq_some_iff.mp hplace).1
  have hu : units[place]? = some units[place] := List.getElem?_eq_getElem hlt
  have hsize := hpos _ (List.mem_of_getElem? hu)
  rw [← (h.isPart place _ amount hu hplace).sign_eq (mul_ne_zero hne hsize.ne'), sign_mul,
    sign_pos hsize, mul_one]

end IsGreedy

/-- **Spreading makes greedy slots.** -/
theorem isGreedy_spread {level : ℤ} :
    ∀ {units : List MeasureUnit} {total : Rational}, units ≠ [] →
      (∀ u ∈ units, 0 < u.multiplier ∧ 0 < u.divisor) → total.isDefined = true →
      Lossless (spreadSteps level units total) →
      ∃ last, IsGreedy level units total.toRat (spread level units total) last
  | [], _, hne, _, _, _ => absurd rfl hne
  | [unit], total, _, hpos, hdef, h => by
    have hunit := hpos unit List.mem_cons_self
    exact ⟨0, .keep (inLowestTerms_scaleBy hdef hunit.1.ne' h) (MeasureUnit.size_pos hunit)
      (MeasureUnit.toRat_fromBase hunit h) (.inl rfl)⟩
  | unit :: next :: rest, total, _, hpos, hdef, h => by
    have hunit := hpos unit List.mem_cons_self
    have hsize := MeasureUnit.size_pos hunit
    have hpos' : ∀ u ∈ next :: rest, 0 < u.multiplier ∧ 0 < u.divisor :=
      fun u hu => hpos u (List.mem_cons_of_mem unit hu)
    have hsizes : ∀ u ∈ next :: rest, 0 < u.size := fun u hu => MeasureUnit.size_pos (hpos' u hu)
    rw [spreadSteps, lossless_append] at h
    obtain ⟨hscale, h⟩ := h
    have hterms : (unit.fromBase total).InLowestTerms :=
      inLowestTerms_scaleBy hdef hunit.1.ne' hscale
    have hamount := MeasureUnit.toRat_fromBase hunit hscale
    rw [spread]
    split at h
    · -- the unit keeps all that is left
      rename_i hkeep
      rw [if_pos hkeep]
      exact ⟨0, .keep hterms hsize hamount
        (.inr ⟨next, rest, rfl, by rwa [hterms.num_toRat.2]⟩)⟩
    · rename_i hkeep
      rw [if_neg hkeep]
      split at h
      · -- the whole part stays, the fraction moves down
        rename_i hwhole
        rw [if_pos hwhole]
        rw [lossless_append, lossless_append] at h
        obtain ⟨⟨hsub, hdown⟩, hrest⟩ := h
        have hdef' : (unit.asBase ((unit.fromBase total).subtract
            (.ofInt (unit.fromBase total).truncated))).isDefined = true := by
          rw [MeasureUnit.isDefined_asBase hunit, subtract, isDefined_add, hterms.isDefined,
            Bool.true_or]
        obtain ⟨last, hlast⟩ := isGreedy_spread (List.cons_ne_nil _ _) hpos' hdef' hrest
        rw [MeasureUnit.toRat_asBase hunit hdown, toRat_subtract hsub,
          hterms.toRat_ofInt_truncated] at hlast
        exact ⟨last + 1, hlast.cons_whole hterms hwhole hsize hamount (not_lt.mp hkeep) hsizes⟩
      · -- there is less than one of the unit, and all moves down
        rename_i hwhole
        rw [if_neg hwhole]
        rw [lossless_append] at h
        obtain ⟨hdown, hrest⟩ := h
        have hdef' : (unit.asBase (unit.fromBase total)).isDefined = true := by
          rw [MeasureUnit.isDefined_asBase hunit, hterms.isDefined]
        obtain ⟨last, hlast⟩ := isGreedy_spread (List.cons_ne_nil _ _) hpos' hdef' hrest
        rw [MeasureUnit.toRat_asBase hunit hdown, hamount, div_mul_cancel₀ _ hsize.ne'] at hlast
        exact ⟨last + 1, hlast.cons_none hterms (Nat.eq_zero_of_not_pos hwhole) hsize hamount
          (not_lt.mp hkeep) hsizes⟩

/-! ## Totals of greedy slots -/

/-- The total of slots is in lowest terms if nothing is cut on the way. -/
theorem inLowestTerms_foldl_asBase {units : List MeasureUnit} :
    ∀ {slots : Slots} {total : Rational}, total.InLowestTerms →
      Lossless (totalSteps total units slots) →
      (((units.zip slots).filterMap fun (u, slot) => slot.map u.asBase).foldl Rational.add
        total).InLowestTerms := by
  induction units with
  | nil => exact fun ht _ => ht
  | cons u us ih =>
    intro slots total ht h
    cases slots with
    | nil => exact ht
    | cons slot slots =>
      cases slot with
      | none => exact ih ht h
      | some amount =>
        rw [totalSteps, lossless_append, lossless_cons] at h
        obtain ⟨-, hadd, hrest⟩ := h
        exact ih (ht.add hadd) hrest

/-- **A total is in lowest terms** where nothing is cut. -/
theorem inLowestTerms_asBase {s : UnitSet} {slots : Slots} (h : Lossless (s.asBaseSteps slots)) :
    (s.asBase slots).InLowestTerms :=
  inLowestTerms_foldl_asBase (by decide) h

/-- **Slots that a total is spread over** have that total. -/
theorem asBase_distribute {s : UnitSet} (hs : s.IsChecked) {level : ℤ} {total : Rational}
    (ht : total.InLowestTerms)
    (h : Lossless (spreadSteps level s.units total ++ s.asBaseSteps (s.distribute total level))) :
    s.asBase (s.distribute total level) = total := by
  obtain ⟨hspread, hbase⟩ := lossless_append.mp h
  refine (inLowestTerms_asBase hbase).ext ht ?_
  rw [toRat_asBase hs hbase]
  exact exactTotal_spread hs.units_ne_nil hs.units_pos hspread

end UnitSet

namespace Measure

variable {k : Kind} {m : Measure k}

/-- **Simplifying twice** is simplifying once. -/
theorem simplify_simplify (hk : k.family.IsChecked)
    (h : Lossless (m.simplifySteps ++ m.simplify.simplifySteps)) :
    m.simplify.simplify = m.simplify := by
  obtain ⟨hfirst, hsecond⟩ := lossless_append.mp h
  cases hset : m.activeSet with
  | none =>
    have hsame : m.simplify = m := by rw [simplify, hset]
    rw [hsame, hsame]
  | some s =>
    obtain ⟨index, -, hget⟩ := Option.bind_eq_some_iff.mp hset
    have hs : s.IsChecked := hk s (List.mem_of_getElem? hget)
    have hsimplify : m.simplify = { m with slots := s.distribute (s.asBase m.slots) m.level } := by
      rw [simplify, hset]
    have hset' : m.simplify.activeSet = some s := by rw [hsimplify]; exact hset
    rw [simplifySteps, hset] at hfirst
    rw [simplifySteps, hset', hsimplify] at hsecond
    obtain ⟨hbase, hspread⟩ := lossless_append.mp hfirst
    obtain ⟨hbase', -⟩ := lossless_append.mp hsecond
    have htotal : s.asBase (s.distribute (s.asBase m.slots) m.level) = s.asBase m.slots :=
      UnitSet.asBase_distribute hs (UnitSet.inLowestTerms_asBase hbase)
        (lossless_append.mpr ⟨hspread, hbase'⟩)
    rw [simplify, hset', hsimplify]
    simp only [htotal]

/-- **Simplification is exact and canonical**, for every set that passes the checks, every level and
every total, as long as nothing is cut: the slots have the total and are greedy, their amounts have
the sign of the total, and simplifying a measure once more changes nothing. -/
theorem simplification_canonical :
    (∀ (s : UnitSet) (level : ℤ) (total : Rational), s.IsChecked → total.InLowestTerms →
      Lossless (UnitSet.spreadSteps level s.units total ++
        s.asBaseSteps (s.distribute total level)) →
      s.asBase (s.distribute total level) = total ∧
        (∃ last, UnitSet.IsGreedy level s.units total.toRat (s.distribute total level) last) ∧
        ∀ amount, some amount ∈ s.distribute total level → amount.toRat ≠ 0 →
          SignType.sign amount.toRat = SignType.sign total.toRat) ∧
      ∀ (k : Kind) (m : Measure k), k.family.IsChecked →
        Lossless (m.simplifySteps ++ m.simplify.simplifySteps) →
        m.simplify.simplify = m.simplify := by
  refine ⟨fun s level total hs ht h => ?_, fun k m hk h => simplify_simplify hk h⟩
  obtain ⟨last, hlast⟩ := UnitSet.isGreedy_spread hs.units_ne_nil hs.units_pos ht.isDefined
    (lossless_append.mp h).1
  have hsizes : ∀ u ∈ s.units, 0 < u.size := fun u hu => MeasureUnit.size_pos (hs.units_pos u hu)
  exact ⟨UnitSet.asBase_distribute hs ht h, ⟨last, hlast⟩,
    fun amount ha hne => hlast.sign_eq hsizes ha hne⟩

/-- A mile and a half and a sixteenth of a foot backwards, all given in feet. -/
def backwards : Measure (.standard .distance) :=
  ⟨some 0, [none, some (.signed (-7920) 1 16), none], 20⟩

/-- A negative distance spread over miles, feet and inches, and simplified once more. -/
theorem simplification_canonical_backwards :
    (∃ s, Dimension.distance.family.sets[0]? = some s ∧
      s.distribute (.signed (-7920) 1 16) 20 =
        [some (.ofInt (-1)), some (.ofInt (-2640)), some (.signed 0 (-3) 4)] ∧
      s.asBase (s.distribute (.signed (-7920) 1 16) 20) = .signed (-7920) 1 16 ∧
      (∃ last, UnitSet.IsGreedy 20 s.units (Rational.signed (-7920) 1 16).toRat
        (s.distribute (.signed (-7920) 1 16) 20) last) ∧
      ∀ amount, some amount ∈ s.distribute (.signed (-7920) 1 16) 20 → amount.toRat ≠ 0 →
        SignType.sign amount.toRat = SignType.sign (Rational.signed (-7920) 1 16).toRat) ∧
      backwards.simplify ≠ backwards ∧ backwards.simplify.simplify = backwards.simplify := by
  obtain ⟨hspread, hsimplify⟩ := simplification_canonical
  refine ⟨⟨_, rfl, by decide +kernel, hspread _ 20 (.signed (-7920) 1 16) ?_ (by decide) ?_⟩,
    by decide +kernel, hsimplify _ backwards (Dimension.isChecked_family .distance) ?_⟩
  · exact Dimension.isChecked_family .distance _ (List.mem_of_getElem? (i := 0) rfl)
  · decide +kernel
  · decide +kernel

end Measure

end Tabletop
