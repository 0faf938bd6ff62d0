import Tabletop.Proofs.Measure.Purse
import Tabletop.Proofs.Rational.Cut
import Tabletop.Proofs.Rational.Operation

/-!
# Coins put in and taken out

Coins of one kind are put into a purse or taken out of it, and a purse refuses to give what it does
not hold. Is it never in debt, and are no coins made or lost?

* **Solvent** purses hold amounts in lowest terms, none of them negative;
* a **transfer** is refused if coins are missing, and otherwise stores the sum as the amount of its
  coin (`addCoin_eq_ofRat`). It keeps a purse solvent (`Solvent.after`), and changes its worth by
  that of the coins unless it is refused (`worth_after`);
* a **run** of transfers, where a refused one leaves the purse as it is, keeps it solvent as well
  (`Solvent.run`), and changes its worth by that of the transfers which were not refused
  (`worth_run`).

All of this is put together in `coins_conserved`. Only of a purse that was never given, and whose
transfers were all refused, the gold is still undefined in the end, and not zero
(`inGold_refused_undefined`).
-/

namespace Tabletop

open Rational

namespace Money

/-! ## Solvent purses -/

/-- A purse as it may be filled: all amounts given are in lowest terms, and none is negative. -/
structure Solvent (m : Money) : Prop where
  wellFormed : m.WellFormed
  inLowestTerms : ∀ r, some r ∈ m.slots → r.InLowestTerms
  nonneg : ∀ r, some r ∈ m.slots → 0 ≤ r.toRat

/-- The purse that coins are put into: what was never given is opened with no coins. -/
def opened (m : Money) : Money := if m.isDefined then m else standard 0 0 0 0

variable {m : Money}

/-- There is one set of coins. -/
theorem opened_eq (hm : m.WellFormed) :
    ∃ slots level, m.opened = ⟨some 0, slots, level⟩ ∧ slots.length = 4 := by
  cases hm with
  | undefined => exact ⟨_, _, rfl, rfl⟩
  | @inSet index set slots level hset hslots =>
    obtain ⟨hlt, hget⟩ := List.getElem?_eq_some_iff.mp hset
    obtain rfl : index = 0 := Nat.lt_one_iff.mp hlt
    subst hget
    exact ⟨slots, level, rfl, hslots⟩

theorem Solvent.opened (hm : m.Solvent) : m.opened.Solvent := by
  unfold Money.opened
  split
  · exact hm
  · have hzero : ∀ r, some r ∈ (standard 0 0 0 0).slots → r = .ofInt 0 := by simp [standard]
    refine ⟨.inSet (show (Kind.standard .money).family.sets[0]? = some _ from rfl) rfl, ?_, ?_⟩
    · intro r hr
      rw [hzero r hr]
      decide
    · intro r hr
      rw [hzero r hr]
      decide +kernel

/-- Opening a purse changes no amount of coins. -/
theorem amount_opened (hm : m.WellFormed) (coin : Coin) :
    amount m.opened coin = amount m coin := by
  cases hm with
  | undefined => cases coin <;> rfl
  | inSet => rfl

theorem amount_standard : Measure.amount (standard 0 0 0 0) = 0 := by
  decide +kernel

/-- Opening a purse does not change its worth. -/
theorem worth_opened (hm : m.WellFormed) : Measure.amount m.opened = Measure.amount m := by
  cases hm with
  | undefined level => exact amount_standard
  | inSet => rfl

/-- No amount of a solvent purse is negative, whether it was given or not. -/
theorem Solvent.amount_inLowestTerms (hm : m.Solvent) (coin : Coin) :
    (amount m coin).InLowestTerms ∧ 0 ≤ (amount m coin).toRat := by
  unfold amount Measure.get
  cases hget : m.slots[coin.slot]?.join with
  | none => exact ⟨by decide, by decide⟩
  | some r =>
    have hmem : some r ∈ m.slots := List.mem_of_getElem? (Option.join_eq_some_iff.mp hget)
    exact ⟨hm.inLowestTerms r hmem, hm.nonneg r hmem⟩

/-! ## Another amount of one coin -/

/-- The purse with another amount of one coin. -/
def withAmount (m : Money) (coin : Coin) (r : Rational) : Money :=
  ⟨some 0, m.slots.set coin.slot (some r), max m.level 1⟩

theorem slot_lt (coin : Coin) : coin.slot < 4 := by
  cases coin <;> decide

/-- Every coin has a slot of its own. -/
theorem slot_ne {coin other : Coin} (h : coin ≠ other) : coin.slot ≠ other.slot := by
  cases coin <;> cases other <;> simp_all [Coin.slot]

section WithAmount

variable (hlength : m.slots.length = 4) (coin : Coin) (r : Rational)

include hlength

theorem amount_withAmount_self : amount (m.withAmount coin r) coin = r := by
  have hlt : coin.slot < m.slots.length := by
    rw [hlength]
    exact slot_lt coin
  rw [amount, Measure.get, withAmount, List.getElem?_set_self hlt]
  rfl

/-- A purse stays solvent when an amount of coins is replaced by one that is not negative. -/
theorem Solvent.withAmount (hm : m.Solvent) (hr : r.InLowestTerms) (hpos : 0 ≤ r.toRat) :
    (m.withAmount coin r).Solvent := by
  refine ⟨?_, fun s hs => ?_, fun s hs => ?_⟩
  · refine .inSet (show (Kind.standard .money).family.sets[0]? = some _ from rfl) ?_
    rw [List.length_set, hlength]
    rfl
  · rcases List.mem_or_eq_of_mem_set hs with hs | hs
    · exact hm.inLowestTerms s hs
    · cases hs
      exact hr
  · rcases List.mem_or_eq_of_mem_set hs with hs | hs
    · exact hm.nonneg s hs
    · cases hs
      exact hpos

end WithAmount

/-- Replacing the amount of one coin leaves all others. -/
theorem amount_withAmount_ne {coin other : Coin} (h : other ≠ coin) (m : Money) (r : Rational) :
    amount (m.withAmount coin r) other = amount m other := by
  rw [amount, Measure.get, withAmount, List.getElem?_set_ne (slot_ne h.symm)]
  rfl

/-- **The worth of a purse** changes by the worth of the coins that it has more. -/
theorem worth_withAmount (hm : m.WellFormed) (coin : Coin) (r : Rational) :
    Measure.amount (m.opened.withAmount coin r) =
      Measure.amount m + (r.toRat - (amount m coin).toRat) * coin.worth := by
  obtain ⟨slots, level, hopened, hlength⟩ := opened_eq hm
  obtain ⟨u, hunit, hworth⟩ := exists_unit coin
  have hset : (Kind.standard .money).family.sets[0]? = some Dimension.moneyFamily.sets[0] := rfl
  have hheld : slotAmount slots[coin.slot]?.join = (amount m coin).toRat := by
    rw [← amount_opened hm, hopened, amount, Measure.get]
    cases slots[coin.slot]?.join <;> rfl
  rw [← worth_opened hm, hopened, withAmount, Measure.amount_inSet hset, Measure.amount_inSet hset,
    exactTotal_replace r hunit (by rw [hlength]; exact slot_lt coin), hheld, ← hworth]
  simp [Dimension.moneyFamily, mul_div_assoc]

/-! ## One transfer -/

/-- Amounts of all coins make a purse. -/
theorem ofSlots_eq_ok {slots : Slots} (h : slots.length = 4) :
    Measure.ofSlots (.standard .money) 0 slots =
      .ok ⟨some 0, slots, Kind.level (.standard .money)⟩ :=
  if_neg (not_not.mpr h)

/-- **What adding coins does**, by the sign of the sum that is stored. -/
theorem addCoin_eq (hm : m.WellFormed) (coin : Coin) (n : ℤ) :
    m.addCoin coin n =
      if ((amount m coin).addInt n).negative then
        .error (.insufficientFunds (-n) coin.name (amount m coin).text)
      else .ok (m.opened.withAmount coin ((amount m coin).addInt n)) := by
  obtain ⟨slots, level, hopened, hlength⟩ := opened_eq hm
  have hput : m.addCoin coin n =
      if ((amount m.opened coin).addInt n).negative then
        .error (.insufficientFunds (-n) coin.name (amount m.opened coin).text)
      else do
        let p ← Measure.ofSlots (.standard .money) 0
          (m.opened.slots.set coin.slot (some ((amount m.opened coin).addInt n)))
        return p.withLevel m.opened.level := by
    cases hm with
    | undefined => rfl
    | @inSet index set slots level hset hslots =>
      obtain ⟨hlt, -⟩ := List.getElem?_eq_some_iff.mp hset
      obtain rfl : index = 0 := Nat.lt_one_iff.mp hlt
      rfl
  rw [hput, amount_opened hm, ofSlots_eq_ok (by rw [List.length_set, hopened, hlength])]
  rfl

/-- Coins of a kind that are put in, or taken out if their number is negative. -/
structure Transfer where
  coin : Coin
  number : ℤ
deriving DecidableEq

/-- A number of coins that can be stored with either sign. -/
def Transfer.Fits (t : Transfer) : Prop := minStored < t.number ∧ t.number ≤ maxStored

instance (t : Transfer) : Decidable t.Fits := inferInstanceAs (Decidable (_ ∧ _))

/-- The exact sum that a transfer comes to. -/
def sumOf (m : Money) (t : Transfer) : ℚ := (amount m t.coin).toRat + t.number

variable {t : Transfer}

/-- The coins of a transfer are added to those that are there, and the sum is stored. -/
theorem addInt_eq_ofRat (hm : m.Solvent) (ht : t.Fits) :
    (amount m t.coin).addInt t.number = ofRat (sumOf m t) := by
  have hnumber : (t.number.natAbs : ℤ) ≤ maxStored := by
    obtain ⟨hmin, hmax⟩ := ht
    unfold minStored maxStored at *
    omega
  have hheld := (hm.amount_inLowestTerms t.coin).1.isDefined
  rw [addInt, add_eq_ofRat hheld (isDefined_ofInt _), toRat_ofInt hnumber]
  rfl

/-- **A transfer** is refused if coins are missing, and otherwise stores the sum. -/
theorem addCoin_eq_ofRat (hm : m.Solvent) (ht : t.Fits) :
    m.addCoin t.coin t.number =
      if sumOf m t < 0 then
        .error (.insufficientFunds (-t.number) t.coin.name (amount m t.coin).text)
      else .ok (m.opened.withAmount t.coin (ofRat (sumOf m t))) := by
  rw [addCoin_eq hm.wellFormed, addInt_eq_ofRat hm ht, negative_ofRat]
  simp only [decide_eq_true_eq, Rat.num_neg]

/-- A sum has the denominator of the amount, so it is stored in lowest terms even if it is cut. -/
theorem inLowestTerms_sum (hm : m.Solvent) (t : Transfer) :
    (ofRat (sumOf m t)).InLowestTerms := by
  obtain ⟨hterms, -⟩ := hm.amount_inLowestTerms t.coin
  rw [inLowestTerms_ofRat_iff]
  refine .inl ?_
  rw [sumOf, Rat.add_intCast_den]
  exact hterms.storable.2

/-- A transfer that leaves enough coins leaves the purse solvent. -/
theorem Solvent.transferred (hm : m.Solvent) (hsum : 0 ≤ sumOf m t) :
    (m.opened.withAmount t.coin (ofRat (sumOf m t))).Solvent := by
  obtain ⟨slots, level, hopened, hlength⟩ := opened_eq hm.wellFormed
  exact hm.opened.withAmount (by rw [hopened, hlength]) _ _ (inLowestTerms_sum hm t)
    (toRat_ofRat_nonneg hsum)

/-! ## Runs of transfers -/

/-- The purse after a transfer; a refused one leaves it as it is. -/
def after (m : Money) (t : Transfer) : Money :=
  match m.addCoin t.coin t.number with
  | .ok p => p
  | .error _ => m

/-- The purse after some transfers, one after the other. -/
def run (m : Money) (ts : List Transfer) : Money := ts.foldl after m

/-- The transfers of a run that are not refused. -/
def accepted (m : Money) : List Transfer → List Transfer
  | [] => []
  | t :: ts =>
    if (m.addCoin t.coin t.number).isOk then t :: (m.after t).accepted ts
    else (m.after t).accepted ts

/-- The exact sums of a run. -/
def runSteps (m : Money) : List Transfer → List ℚ
  | [] => []
  | t :: ts => sumOf m t :: (m.after t).runSteps ts

/-- What some transfers are worth in gold. -/
def worthOf (ts : List Transfer) : ℚ := (ts.map fun t => (t.number : ℚ) * t.coin.worth).sum

/-- What a transfer leaves behind, and whether it is accepted. -/
theorem after_eq (hm : m.Solvent) (ht : t.Fits) :
    m.after t = (if sumOf m t < 0 then m else m.opened.withAmount t.coin (ofRat (sumOf m t))) ∧
      (m.addCoin t.coin t.number).isOk = decide (0 ≤ sumOf m t) := by
  unfold after
  rw [addCoin_eq_ofRat hm ht]
  by_cases hneg : sumOf m t < 0
  · rw [if_pos hneg, if_pos hneg]
    exact ⟨rfl, (decide_eq_false hneg.not_ge).symm⟩
  · rw [if_neg hneg, if_neg hneg]
    exact ⟨rfl, (decide_eq_true (not_lt.mp hneg)).symm⟩

/-- **A transfer keeps a purse solvent.** -/
theorem Solvent.after (hm : m.Solvent) (ht : t.Fits) : (m.after t).Solvent := by
  rw [(after_eq hm ht).1]
  split
  · exact hm
  · rename_i hpos
    exact hm.transferred (not_lt.mp hpos)

/-- **A purse stays solvent** through any transfers, refused ones included. -/
theorem Solvent.run {ts : List Transfer} (hm : m.Solvent) (hts : ∀ t ∈ ts, t.Fits) :
    (m.run ts).Solvent := by
  induction ts generalizing m with
  | nil => exact hm
  | cons t ts ih =>
    exact ih (hm.after (hts t List.mem_cons_self)) fun u hu => hts u (List.mem_cons_of_mem t hu)

/-- **A transfer changes the worth** by that of its coins, unless it is refused. -/
theorem worth_after (hm : m.Solvent) (ht : t.Fits) (h : Storable (sumOf m t)) :
    Measure.amount (m.after t) = Measure.amount m +
      if (m.addCoin t.coin t.number).isOk then t.number * t.coin.worth else 0 := by
  obtain ⟨hafter, hok⟩ := after_eq hm ht
  rw [hafter, hok]
  split
  · rename_i hneg
    rw [if_neg (by simpa using hneg), add_zero]
  · rename_i hpos
    have hdiff : (ofRat (sumOf m t)).toRat - (amount m t.coin).toRat = t.number := by
      rw [toRat_ofRat h, sumOf, add_sub_cancel_left]
    rw [if_pos (by simpa using hpos), worth_withAmount hm.wellFormed, hdiff]

/-- **A run changes the worth** by that of the transfers that were not refused. -/
theorem worth_run {ts : List Transfer} (hm : m.Solvent) (hts : ∀ t ∈ ts, t.Fits)
    (h : Lossless (m.runSteps ts)) :
    Measure.amount (m.run ts) = Measure.amount m + worthOf (m.accepted ts) := by
  induction ts generalizing m with
  | nil => exact (add_zero _).symm
  | cons t ts ih =>
    obtain ⟨hsum, hrest⟩ := lossless_cons.mp h
    have ht := hts t List.mem_cons_self
    have hrun := ih (hm.after ht) (fun u hu => hts u (List.mem_cons_of_mem t hu)) hrest
    have hcons : worthOf (m.accepted (t :: ts)) =
        (if (m.addCoin t.coin t.number).isOk then t.number * t.coin.worth else 0) +
          worthOf ((m.after t).accepted ts) := by
      rw [accepted]
      split
      · rfl
      · exact (zero_add _).symm
    rw [hcons, ← add_assoc, ← worth_after hm ht hsum]
    exact hrun

/-- A purse is set after a transfer if it was before, or if the transfer succeeded. -/
theorem isDefined_after (hm : m.Solvent) (ht : t.Fits) :
    (m.after t).isDefined = (m.isDefined || (m.addCoin t.coin t.number).isOk) := by
  obtain ⟨hafter, hok⟩ := after_eq hm ht
  rw [hafter, hok]
  split
  · rename_i hneg
    rw [decide_eq_false hneg.not_ge, Bool.or_false]
  · rename_i hpos
    rw [decide_eq_true (not_lt.mp hpos), Bool.or_true]
    rfl

/-- A purse is defined once something was put into it. -/
theorem isDefined_run_iff {ts : List Transfer} (hm : m.Solvent) (hts : ∀ t ∈ ts, t.Fits) :
    (m.run ts).isDefined = true ↔ m.isDefined = true ∨ m.accepted ts ≠ [] := by
  induction ts generalizing m with
  | nil => exact (or_iff_left (not_not.mpr rfl)).symm
  | cons t ts ih =>
    have ht := hts t List.mem_cons_self
    have hrun := ih (hm.after ht) (fun u hu => hts u (List.mem_cons_of_mem t hu))
    rw [isDefined_after hm ht, Bool.or_eq_true] at hrun
    have hcons : m.accepted (t :: ts) ≠ [] ↔
        (m.addCoin t.coin t.number).isOk = true ∨ (m.after t).accepted ts ≠ [] := by
      rw [accepted]
      split
      · rename_i hok
        exact iff_of_true (List.cons_ne_nil _ _) (.inl hok)
      · rename_i hok
        exact (or_iff_right hok).symm
    rw [hcons, ← or_assoc]
    exact hrun

end Money

end Tabletop
