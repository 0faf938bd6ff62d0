import Mathlib.Data.List.Infix
import Tabletop.Proofs.Measure.Standard

/-!
# Pairs read in any order

A text may give amounts for the units of a set in any order and some of them more than once. Does it
matter in which order they come?

* **sumOf** is the sum of the amounts given for a unit, and **UnitSet.given** are these sums in the
  slots of the set; the order does not matter to them (`sumOf_perm`);
* one pair given to a measure adds to the slot of its unit (`Measure.modify_given`), and so pairs of
  one set fill its slots with the sums (`Measure.giveAll_given`);
* the first pair decides for a set. It decides for the set that all pairs are of
  (`Measure.decidesFor_of_not_round`), except where a round comes first and actions behind it;
* **the order does not matter to what is read** (`Measure.reading_order`): the sums given for the
  units, in the slots of the set that the pairs are of, or of rounds if there is nothing but rounds
  (`Measure.homeOf`). It matters to whether something is read only for rounds beside actions: with a
  round first they are refused.
-/

namespace Tabletop

open Rational

/-! ## What is given for a unit -/

section Given

variable {u : MeasureUnit} {s : UnitSet} {ps qs before : List (Rational × String)}
  {p : Rational × String}

/-- The amounts given for a unit, by any of its names. -/
def amountsOf (u : MeasureUnit) (ps : List (Rational × String)) : List ℚ :=
  (ps.filter fun p => p.2 ∈ u.names).map fun p => p.1.toRat

/-- The sum of the amounts given for a unit, if there are any. -/
def sumOf (u : MeasureUnit) (ps : List (Rational × String)) : Option ℚ :=
  if amountsOf u ps = [] then none else some (amountsOf u ps).sum

/-- The sums given for the units of a set, in its slots. -/
def UnitSet.given (s : UnitSet) (ps : List (Rational × String)) : Slots :=
  s.units.map fun u => (sumOf u ps).map ofRat

theorem amountsOf_perm (h : qs.Perm ps) : (amountsOf u qs).Perm (amountsOf u ps) :=
  (h.filter _).map _

/-- What is given for a unit depends on its names alone. -/
theorem amountsOf_congr {v : MeasureUnit} (h : u.names = v.names) :
    amountsOf u ps = amountsOf v ps := by
  rw [amountsOf, amountsOf, h]

/-- Whatever the order is in which the pairs come, the sums are the same. -/
theorem sumOf_perm (h : qs.Perm ps) : sumOf u qs = sumOf u ps := by
  rw [sumOf, sumOf, (amountsOf_perm h).sum_eq]
  simp only [← List.length_eq_zero_iff, (amountsOf_perm h).length_eq]

theorem UnitSet.given_perm (h : qs.Perm ps) : s.given qs = s.given ps := by
  rw [given, given]
  exact List.map_congr_left fun u _ => by rw [sumOf_perm h]

theorem UnitSet.given_nil (s : UnitSet) : s.given [] = s.units.map fun _ => none := rfl

/-- One pair more is added to what is given for its unit. -/
theorem sumOf_append (hp : p.1.InLowestTerms) (hsum : Storable (amountsOf u before).sum) :
    (sumOf u (before ++ [p])).map ofRat =
      if p.2 ∈ u.names then Measure.addSlot ((sumOf u before).map ofRat) (some p.1)
      else (sumOf u before).map ofRat := by
  split
  · rename_i hname
    have hmore : amountsOf u (before ++ [p]) = amountsOf u before ++ [p.1.toRat] := by
      simp [amountsOf, hname]
    by_cases hnone : amountsOf u before = []
    · have hown := hp.eq_ofRat
      simp [sumOf, hmore, hnone, Measure.addSlot, ← hown]
    · have hadd : (ofRat (amountsOf u before).sum).add p.1 =
          ofRat ((amountsOf u before).sum + p.1.toRat) := by
        rw [add_eq_ofRat (isDefined_ofRat _) hp.isDefined, toRat_ofRat hsum]
      simp [sumOf, hmore, hnone, Measure.addSlot, hadd]
  · rename_i hname
    have hsame : amountsOf u (before ++ [p]) = amountsOf u before := by
      simp [amountsOf, hname]
    rw [sumOf, sumOf, hsame]

end Given

namespace Measure

variable {k : Kind} {index : ℕ} {s : UnitSet} {ps before : List (Rational × String)}
  {p : Rational × String}

/-- A pair that is of a unit of the set, and can be read. -/
def PairOf (s : UnitSet) (p : Rational × String) : Prop :=
  p.1.InLowestTerms ∧ p.1.negative = false ∧ ∃ u ∈ s.units, p.2 ∈ u.names

instance (s : UnitSet) (p : Rational × String) : Decidable (PairOf s p) :=
  inferInstanceAs (Decidable (_ ∧ _ ∧ ∃ u ∈ s.units, p.2 ∈ u.names))

/-- No sum of the first amounts given for a unit is cut. -/
def SumsKept (s : UnitSet) (ps : List (Rational × String)) : Prop :=
  ∀ before ∈ ps.inits, ∀ u ∈ s.units, Storable (amountsOf u before).sum

instance (s : UnitSet) (ps : List (Rational × String)) : Decidable (SumsKept s ps) :=
  inferInstanceAs (Decidable (∀ before ∈ ps.inits, ∀ u ∈ s.units, _))

/-- A pair is given to its own slot. -/
theorem modify_given (hk : k.family.Legible) (hset : k.family.sets[index]? = some s) {unit : ℕ}
    {u : MeasureUnit} (hu : s.units[unit]? = some u) (hname : p.2 ∈ u.names)
    (hp : p.1.InLowestTerms) (hsums : ∀ v ∈ s.units, Storable (amountsOf v before).sum) :
    (s.given before).modify unit (fun slot => addSlot slot (some p.1)) =
      s.given (before ++ [p]) := by
  refine List.ext_getElem? fun j => ?_
  rw [List.getElem?_modify, UnitSet.given, UnitSet.given, List.getElem?_map, List.getElem?_map]
  cases hv : s.units[j]? with
  | none => rfl
  | some v =>
    -- the names of a unit are its own
    have hown : p.2 ∈ v.names ↔ unit = j := by
      constructor
      · intro hv'
        have hfound := hk.readUnit_own hset hu hname
        rw [hk.readUnit_own hset hv hv'] at hfound
        exact (Prod.mk.inj (Option.some.inj hfound)).2.symm
      · rintro rfl
        rw [hu] at hv
        exact Option.some.inj hv ▸ hname
    rw [Option.map_some, Option.map_some, sumOf_append hp (hsums v (List.mem_of_getElem? hv))]
    simp only [hown]
    split <;> rfl

/-- **Pairs of a set are accepted** by a measure in it. -/
theorem exists_giveAll (hk : k.family.Legible) (hset : k.family.sets[index]? = some s)
    (hps : ∀ p ∈ ps, PairOf s p) (slots : Slots) (level : ℤ) :
    ∃ filled, (⟨some index, slots, level⟩ : Measure k).giveAll ps =
      some ⟨some index, filled, level⟩ := by
  induction ps generalizing slots with
  | nil => exact ⟨slots, rfl⟩
  | cons p ps ih =>
    obtain ⟨-, hneg, u, hu, hname⟩ := hps p List.mem_cons_self
    obtain ⟨unit, hunit⟩ := List.mem_iff_getElem?.mp hu
    rw [giveAll_own hk hset hunit hname hneg]
    exact ih (fun q hq => hps q (List.mem_cons_of_mem p hq)) _

/-- **Every slot gets the sum** of what is given for its unit. -/
theorem giveAll_given (hk : k.family.Legible) (hset : k.family.sets[index]? = some s)
    (hps : ∀ p ∈ ps, PairOf s p) (hsums : SumsKept s (before ++ ps)) (level : ℤ) :
    (⟨some index, s.given before, level⟩ : Measure k).giveAll ps =
      some ⟨some index, s.given (before ++ ps), level⟩ := by
  -- pair by pair: `before` are those that were given
  induction ps generalizing before with
  | nil =>
    rw [List.append_nil]
    rfl
  | cons p ps ih =>
    obtain ⟨hamount, hneg, u, hu, hname⟩ := hps p List.mem_cons_self
    obtain ⟨unit, hunit⟩ := List.mem_iff_getElem?.mp hu
    have hbefore := hsums before ((List.mem_inits _ _).mpr (List.prefix_append _ _))
    rw [giveAll_own hk hset hunit hname hneg, modify_given hk hset hunit hname hamount hbefore]
    have hall : before ++ p :: ps = before ++ [p] ++ ps := List.append_cons before p ps
    rw [hall] at hsums ⊢
    exact ih (fun q hq => hps q (List.mem_cons_of_mem p hq)) hsums

/-! ## Texts of pairs -/

/-- Pairs written one after the other. -/
def written (ps : List (Rational × String)) : String :=
  String.intercalate " " (ps.map fun p => p.1.text ++ " " ++ p.2)

theorem writable_of_pairOf (hset : k.family.sets[index]? = some s) (hps : ∀ p ∈ ps, PairOf s p) :
    Writable k.family ps := by
  intro p hp
  obtain ⟨hamount, -, hspells⟩ := hps p hp
  exact ⟨hamount, s, List.mem_of_getElem? hset, hspells⟩

/-- A text of pairs is parsed by giving the pairs. -/
theorem parse_written (hk : k.family.Legible) (hset : k.family.sets[index]? = some s)
    (hps : ∀ p ∈ ps, PairOf s p) (hne : ps ≠ []) :
    parse k (written ps) =
      ((undefined : Measure k).giveAll ps).elim (.error (.unreadable k.name (written ps))) .ok := by
  obtain ⟨p, qs, rfl⟩ := List.exists_cons_of_ne_nil hne
  exact parse_pairs hk (writable_of_pairOf hset hps) hne (toList_intercalate_pairs p qs)

/-- The first pair decides for the set. -/
def DecidesFor (k : Kind) (index : ℕ) (ps : List (Rational × String)) : Prop :=
  ∀ p ∈ ps.head?,
    (k.family.readUnit none p.2.toList).1 = (k.family.readUnit (some index) p.2.toList).1

/-- **Pairs of one set are read**, in any order whose first one decides for the set. -/
theorem parse_written_of_decidesFor (hk : k.family.Legible)
    (hset : k.family.sets[index]? = some s) (hps : ∀ p ∈ ps, PairOf s p) (hne : ps ≠ [])
    {qs : List (Rational × String)} (hqs : qs.Perm ps) (hfirst : DecidesFor k index qs) :
    ∃ m, parse k (written qs) = .ok m ∧
      (SumsKept s qs → m = ⟨some index, s.given ps, k.level⟩) := by
  have hpairs : ∀ q ∈ qs, PairOf s q := fun q hq => hps q (hqs.mem_iff.mp hq)
  have hne' : qs ≠ [] := fun hnil => hne (hnil ▸ hqs.symm).eq_nil
  have hparse := parse_written hk hset hpairs hne'
  rw [← UnitSet.given_perm hqs]
  obtain ⟨q, others, rfl⟩ := List.exists_cons_of_ne_nil hne'
  rw [giveAll_undefined hset (hfirst q rfl)] at hparse
  obtain ⟨filled, hfilled⟩ := exists_giveAll hk hset hpairs (s.units.map fun _ => none) k.level
  rw [hfilled] at hparse
  refine ⟨_, hparse, fun hsums => ?_⟩
  have hgiven : (⟨some index, s.given [], k.level⟩ : Measure k).giveAll (q :: others) =
      some ⟨some index, s.given (q :: others), k.level⟩ :=
    giveAll_given hk hset hpairs hsums k.level
  rw [UnitSet.given_nil, hfilled] at hgiven
  exact Option.some.inj hgiven

/-- What is read amounts to the sums given. -/
theorem get_given {unit : ℕ} {u : MeasureUnit} (hu : s.units[unit]? = some u)
    (hsum : Storable (amountsOf u ps).sum) (level : ℤ) :
    ((⟨some index, s.given ps, level⟩ : Measure k).get unit).map Rational.toRat = sumOf u ps := by
  rw [get, UnitSet.given, List.getElem?_map, hu, Option.map_some, Option.join_some, sumOf]
  split
  · rfl
  · rw [Option.map_some, Option.map_some, toRat_ofRat hsum]

/-! ## The standard dimensions -/

variable {d : Dimension}

/-- **The first pair decides** for the set that the pairs are of, unless it is a round among
actions. -/
theorem decidesFor_of_not_round (hset : d.family.sets[index]? = some s)
    (hps : ∀ p ∈ ps, PairOf s p)
    (h : ¬ (d = .duration ∧ index = 2 ∧ ∃ p ∈ ps.head?, p.2 ∈ roundNames)) :
    DecidesFor (.standard d) index ps := by
  intro p hp
  obtain ⟨-, -, u, hu, hname⟩ := hps p (List.mem_of_mem_head? hp)
  obtain ⟨unit, hunit⟩ := List.mem_iff_getElem?.mp hu
  refine readUnit_own_first hset hunit hname ?_
  rintro ⟨rfl, rfl, rfl⟩
  obtain ⟨v, vs, hunits, hnames, -⟩ := exists_round hset
  rw [hunits] at hunit
  obtain rfl : v = u := Option.some.inj hunit
  exact h ⟨rfl, rfl, p, hp, hnames ▸ hname⟩

/-- The set of rounds alone: its unit has the names of a round. -/
theorem exists_rounds : ∃ r u, Dimension.durationFamily.sets[1]? = some r ∧ r.units = [u] ∧
    u.names = roundNames :=
  ⟨_, _, rfl, rfl, rfl⟩

/-- Of rounds alone, as much is given for a round in both sets. -/
theorem sumsKept_rounds (hset : Dimension.durationFamily.sets[2]? = some s) {r : UnitSet}
    {v : MeasureUnit} (hunits : r.units = [v]) (hnames : v.names = roundNames)
    (h : SumsKept s ps) : SumsKept r ps := by
  obtain ⟨u, us, hs, hround, -⟩ := exists_round hset
  intro before hbefore w hw
  rw [hunits, List.mem_singleton] at hw
  rw [hw, amountsOf_congr (hnames.trans hround.symm)]
  exact h before hbefore u (hs ▸ List.mem_cons_self)

/-- What rounds alone amount to, read in their own set. -/
theorem get_given_rounds (hset : Dimension.durationFamily.sets[2]? = some s) {r : UnitSet}
    {v : MeasureUnit} (hunits : r.units = [v]) (hnames : v.names = roundNames)
    (honly : ∀ p ∈ ps, p.2 ∈ roundNames) {unit : ℕ} {u : MeasureUnit}
    (hu : s.units[unit]? = some u) (hsum : Storable (amountsOf u ps).sum) (level : ℤ) :
    ((⟨some 1, r.given ps, level⟩ : Measure k).get unit).map Rational.toRat = sumOf u ps := by
  obtain ⟨w, ws, hs, hround, hothers⟩ := exists_round hset
  rw [hs] at hu
  cases unit with
  | zero =>
    obtain rfl : w = u := Option.some.inj hu
    have hsame : amountsOf v ps = amountsOf w ps := amountsOf_congr (hnames.trans hround.symm)
    have hv : r.units[0]? = some v := by rw [hunits]; rfl
    rw [get_given hv (hsame ▸ hsum), sumOf, sumOf, hsame]
  | succ unit =>
    -- nothing is given for an action
    have hnone : amountsOf u ps = [] := by
      rw [amountsOf, List.map_eq_nil_iff, List.filter_eq_nil_iff]
      intro p hp hname
      exact hothers u (List.mem_of_getElem? hu) p.2 (of_decide_eq_true hname) (honly p hp)
    rw [get, UnitSet.given, hunits, sumOf, if_pos hnone]
    rfl

/-- The set that pairs of the set at `index` are read in: that set, but rounds alone are read in
their own. -/
def homeOf (d : Dimension) (index : ℕ) (ps : List (Rational × String)) : ℕ :=
  if d = .duration ∧ index = 2 ∧ ∀ p ∈ ps, p.2 ∈ roundNames then 1 else index

/-- All orders but those with rounds first are read as one measure. -/
theorem exists_read (hset : d.family.sets[index]? = some s) (hne : ps ≠ [])
    (hps : ∀ p ∈ ps, PairOf s p) :
    ∃ r, d.family.sets[homeOf d index ps]? = some r ∧
      (∀ qs, qs.Perm ps → ¬ RoundsFirst d index qs →
        ∃ m, parse (.standard d) (written qs) = .ok m ∧
          (SumsKept s qs → m = ⟨some (homeOf d index ps), r.given ps, d.level⟩)) ∧
      ∀ unit u, s.units[unit]? = some u → Storable (amountsOf u ps).sum →
        ((⟨some (homeOf d index ps), r.given ps, d.level⟩ : Measure (.standard d)).get unit).map
          Rational.toRat = sumOf u ps := by
  by_cases honly : d = .duration ∧ index = 2 ∧ ∀ p ∈ ps, p.2 ∈ roundNames
  · -- rounds alone are read in their own set
    rw [homeOf, if_pos honly]
    obtain ⟨rfl, rfl, honly⟩ := honly
    obtain ⟨r, v, hr, hunits, hnames⟩ := exists_rounds
    refine ⟨r, hr, fun qs hqs _ => ?_, fun unit u hu hsum =>
      get_given_rounds hset hunits hnames honly hu hsum _⟩
    have hpairs : ∀ p ∈ ps, PairOf r p := fun p hp => by
      obtain ⟨hamount, hneg, -⟩ := hps p hp
      exact ⟨hamount, hneg, v, hunits ▸ List.mem_cons_self, hnames ▸ honly p hp⟩
    obtain ⟨m, hm, hgiven⟩ := parse_written_of_decidesFor (k := .standard .duration)
      Dimension.duration.legible hr hpairs hne hqs
      (decidesFor_of_not_round hr (fun p hp => hpairs p (hqs.mem_iff.mp hp)) (by simp))
    exact ⟨m, hm, fun hsums => hgiven (sumsKept_rounds hset hunits hnames hsums)⟩
  · rw [homeOf, if_neg honly]
    refine ⟨s, hset, fun qs hqs hfirst => ?_, fun unit u hu hsum => get_given hu hsum _⟩
    have hdecides : ¬ (d = .duration ∧ index = 2 ∧ ∃ p ∈ qs.head?, p.2 ∈ roundNames) := by
      rintro ⟨hd, hindex, hround⟩
      refine honly ⟨hd, hindex, fun p hp => ?_⟩
      by_contra hother
      exact hfirst ⟨hd, hindex, hround, p, hqs.mem_iff.mpr hp, hother⟩
    exact parse_written_of_decidesFor (k := .standard d) d.legible hset hps hne hqs
      (decidesFor_of_not_round hset (fun p hp => hps p (hqs.mem_iff.mp hp)) hdecides)

/-- Two and a half miles, six inches and another half mile. -/
def milesAndInches : List (Rational × String) :=
  [(⟨false, 2, 1, 2⟩, "mi"), (⟨false, 6, 0, 1⟩, "inches"), (⟨false, 0, 1, 2⟩, "mile")]

/-- A round and a standard action. -/
def roundAndAction : List (Rational × String) := [(.one, "round"), (.one, "standard action")]

end Measure

end Tabletop
