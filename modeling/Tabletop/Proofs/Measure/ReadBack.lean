import Tabletop.Proofs.Measure.Spelling
import Tabletop.Proofs.Measure.Told

/-!
# Measures read back from their text

* **giveAll** gives the pairs of a text to a measure one by one, with no characters in between. In a
  legible family parsing a text gives its pairs (`parse_pairs`);
* a negative amount is **refused**, and so is a spelling unknown to the set (`giveAll_of_refused`);
* the pairs of a set give back its slots (`giveAll_pairs`), if the first spelling decides for that
  set (`giveAll_undefined`). So **a text is read back** as what it tells (`giveAll_told`).
-/

namespace Tabletop

open Text Rational

/-- The text of an amount is a number behind the space before it. -/
theorem Rational.InLowestTerms.numberBehind {r : Rational} (h : r.InLowestTerms) (cs : List Char) :
    NumberBehind (' ' :: (r.text.toList ++ cs)) := by
  have hplain (n : ℤ) (ds : List Char) :
      NumberBehind (' ' :: ((Numeral.plain n).toList ++ ds)) := by
    rw [Numeral.toList_plain]
    split
    · exact .number (.inr rfl) _
    · obtain ⟨c, es, hc⟩ := List.exists_cons_of_ne_nil (Numeral.digits_ne_nil n.natAbs)
      have hdigit := Numeral.isDigit_of_mem_digits n.natAbs c (hc ▸ List.mem_cons_self)
      rw [hc]
      exact .number (.inl hdigit) _
  rw [h.toList_text]
  split
  · exact hplain _ _
  · split
    · rw [List.append_assoc]
      exact hplain _ _
    · rw [List.append_assoc]
      exact hplain _ _

theorem isBlankText_eq_false {cs : List Char} (h : trimStart cs ≠ []) : isBlankText cs = false :=
  Bool.eq_false_iff.mpr (mt isBlankText_iff.mp h)

namespace Measure

variable {k : Kind} {m n : Measure k} {ps : List (Rational × String)} {cs : List Char}

/-! ## Pairs given to a measure -/

/-- The measure with all pairs given to it. A negative amount is refused, and so is a spelling that
the set in use does not know. -/
def giveAll (m : Measure k) : List (Rational × String) → Option (Measure k)
  | [] => some m
  | (amount, name) :: ps =>
    if amount.negative then none
    else
      match (k.family.readUnit m.set name.toList).1 with
      | some (index, unit) => (m.give amount index unit).giveAll ps
      | none => none

/-- Pairs that can be written: the amounts are in lowest terms and the family spells the units. -/
def Writable (f : Family) (ps : List (Rational × String)) : Prop :=
  ∀ p ∈ ps, p.1.InLowestTerms ∧ f.Spells p.2

/-- A text of pairs begins with its first amount, behind one space. -/
theorem trimStart_pairsText {amount : Rational} {name : String} (h : amount.InLowestTerms) :
    trimStart (pairsText ((amount, name) :: ps)) =
      amount.text.toList ++ ' ' :: (name.toList ++ pairsText ps) := by
  rw [pairsText_cons, trimStart_space, h.trimStart_text]

/-- **Reading the text of some pairs** gives them to the measure; what is refused is left unread. -/
theorem readOnto_pairs (hk : k.family.Legible) (hps : Writable k.family ps)
    (hcs : trimStart cs = trimStart (pairsText ps)) :
    match m.giveAll ps with
    | some n => ∃ rest, m.readOnto cs = (n, rest) ∧ isBlankText rest = true
    | none => isBlankText (m.readOnto cs).2 = false := by
  induction ps generalizing m cs with
  | nil =>
    -- blanks only: there is no number to start a pair with
    have hblank : isBlankText cs = true := isBlankText_iff.mpr hcs
    have hnone : Rational.read cs = (none, cs) := by
      rw [Rational.read, Reader.int_eq_none (Reader.noNumber_of_isBlankText hblank)]
    have hpair : k.family.readPair m.set cs = (none, cs) := by rw [Family.readPair, hnone]
    exact ⟨cs, readOnto_of_none hpair, hblank⟩
  | cons p ps ih =>
    obtain ⟨amount, name⟩ := p
    obtain ⟨hamount, hname⟩ := hps _ List.mem_cons_self
    have hrest : Writable k.family ps := fun q hq => hps q (List.mem_cons_of_mem _ hq)
    have hbehind : NumberBehind (pairsText ps) := by
      cases ps with
      | nil => exact .nil
      | cons q ps =>
        rw [pairsText_cons]
        exact (hrest q List.mem_cons_self).1.numberBehind _
    rw [trimStart_pairsText hamount] at hcs
    have hpair := hk.readPair_eq hname hamount hbehind hcs m.set
    have hvisible : isBlankText cs = false := by
      apply isBlankText_eq_false
      rw [hcs]
      simp
    unfold giveAll
    split at hpair
    · -- a negative amount stops the reading
      rename_i hneg
      rw [if_pos hneg, readOnto_of_none hpair]
      exact hvisible
    · -- so does a spelling that is unknown; any other one is given, and the reading goes on
      rename_i hneg
      rw [if_neg hneg]
      cases hfound : (k.family.readUnit m.set name.toList).1 with
      | none =>
        rw [hfound] at hpair
        rw [readOnto_of_none hpair]
        exact hvisible
      | some found =>
        obtain ⟨index, unit⟩ := found
        rw [hfound] at hpair
        rw [readOnto_of_some hpair]
        exact ih hrest rfl

/-- A measure that something was given to is defined. -/
theorem isDefined_of_giveAll {p : Rational × String} (h : m.giveAll (p :: ps) = some n) :
    n.isDefined = true := by
  induction ps generalizing m p with
  | nil =>
    unfold giveAll at h
    split at h
    · cases h
    · split at h <;> cases h
      rfl
  | cons q ps ih =>
    unfold giveAll at h
    split at h
    · cases h
    · split at h
      · exact ih h
      · cases h

/-- **A text of pairs is parsed** by giving the pairs, one at least. -/
theorem parse_pairs (hk : k.family.Legible) (hps : Writable k.family ps) (hne : ps ≠ [])
    {source : String} (hsource : ' ' :: source.toList = pairsText ps) :
    parse k source =
      ((undefined : Measure k).giveAll ps).elim (.error (.unreadable k.name source)) .ok := by
  have hstart : trimStart source.toList = trimStart (pairsText ps) := by
    rw [← hsource, trimStart_space]
  have hread := readOnto_pairs (m := undefined) hk hps hstart
  unfold parse read
  split at hread
  · rename_i n hgiven
    obtain ⟨rest, hread, hblank⟩ := hread
    obtain ⟨p, qs, rfl⟩ := List.exists_cons_of_ne_nil hne
    have hdef := isDefined_of_giveAll hgiven
    simp only [hread, hdef, hblank, if_true, hgiven, Option.elim_some]
  · -- some text is left, whether or not a measure was read before it
    rename_i hgiven
    rw [hgiven, Option.elim_none]
    generalize (undefined : Measure k).readOnto source.toList = result at hread
    obtain ⟨n, rest⟩ := result
    have hleft : isBlankText rest = false := hread
    cases hdef : n.isDefined with
    | true => simp only [hdef, hleft, if_true, Bool.false_eq_true, if_false]
    | false => simp only [hdef, Bool.false_eq_true, if_false]

/-! ## What is given -/

/-- **A negative amount is refused**, and so is a spelling unknown to the set in use. -/
theorem giveAll_of_refused {p : Rational × String} (hp : p ∈ ps)
    (h : p.1.negative = true ∨
      ∃ index, m.set = some index ∧ (k.family.readUnit (some index) p.2.toList).1 = none) :
    m.giveAll ps = none := by
  induction ps generalizing m with
  | nil => cases hp
  | cons q ps ih =>
    unfold giveAll
    split
    · rfl
    · rename_i hq
      rcases List.mem_cons.mp hp with rfl | hp
      · obtain ⟨index, hset, hunknown⟩ := h.resolve_left hq
        rw [hset, hunknown]
      · -- the set in use stays the same
        rcases hfound : k.family.readUnit m.set q.2.toList with ⟨_ | ⟨j, unit⟩, left⟩
        · rfl
        · refine ih hp (h.imp_right ?_)
          rintro ⟨index, hset, hunknown⟩
          obtain rfl := (Family.readUnit_eq_some hfound).1 index hset
          exact ⟨_, rfl, hunknown⟩

variable {index : ℕ} {s : UnitSet} {slots : Slots}

/-- The slot behind those that are filled is the next one. -/
theorem modify_length (filled slots : Slots) (f : Option Rational → Option Rational) :
    (filled ++ none :: slots).modify filled.length f = filled ++ f none :: slots := by
  induction filled with
  | nil => rfl
  | cons slot filled ih => simpa using ih

/-- A pair of the set in use is given to the slot of its unit. -/
theorem giveAll_own (hk : k.family.Legible) (hset : k.family.sets[index]? = some s) {unit : ℕ}
    {u : MeasureUnit} (hu : s.units[unit]? = some u) {p : Rational × String} (hname : p.2 ∈ u.names)
    (hneg : p.1.negative = false) (slots : Slots) (level : ℤ) :
    (⟨some index, slots, level⟩ : Measure k).giveAll (p :: ps) =
      (⟨some index, slots.modify unit fun slot => addSlot slot (some p.1), level⟩ :
        Measure k).giveAll ps := by
  obtain ⟨amount, name⟩ := p
  have hown := hk.readUnit_own hset hu hname
  rw [giveAll, if_neg (Bool.eq_false_iff.mp hneg), hown]
  rfl

/-- **The pairs of a set** fill its slots one after the other, whichever names the units have. -/
theorem giveAll_pairs (hk : k.family.Legible) (hset : k.family.sets[index]? = some s)
    {name : MeasureUnit → Rational → String} (hname : ∀ u amount, name u amount ∈ u.names)
    {before units : List MeasureUnit} (hunits : s.units = before ++ units) {filled : Slots}
    (hfilled : filled.length = before.length) (hslots : slots.length = units.length)
    (hnonneg : ∀ amount, some amount ∈ slots → amount.negative = false) (level : ℤ) :
    (⟨some index, filled ++ units.map fun _ => none, level⟩ : Measure k).giveAll
      (pairsBy name units slots) = some ⟨some index, filled ++ slots, level⟩ := by
  -- along the units that are left: those before have their slots filled
  induction units generalizing before filled slots with
  | nil =>
    obtain rfl := List.length_eq_zero_iff.mp hslots
    rfl
  | cons u us ih =>
    cases slots with
    | nil => cases hslots
    | cons slot slots =>
      have hunits' : s.units = (before ++ [u]) ++ us := by rw [hunits, List.append_assoc]; rfl
      have hrest := @ih slots (before ++ [u]) hunits' (filled ++ [slot]) (by simp [hfilled])
        (by simpa using hslots) fun amount ha => hnonneg amount (List.mem_cons_of_mem slot ha)
      rw [List.append_assoc, List.append_assoc] at hrest
      cases slot with
      | none => exact hrest
      | some amount =>
        have hunit : s.units[before.length]? = some u := by simp [hunits]
        have hneg := hnonneg amount List.mem_cons_self
        change giveAll _ ((amount, name u amount) :: pairsBy name us slots) = _
        rw [giveAll_own hk hset hunit (hname u amount) hneg]
        simp only [List.map_cons, ← hfilled, modify_length]
        exact hrest

/-- Where the first spelling decides for a set, the pairs are given to that set. -/
theorem giveAll_undefined (hset : k.family.sets[index]? = some s) {p : Rational × String}
    (hfirst : (k.family.readUnit none p.2.toList).1 =
      (k.family.readUnit (some index) p.2.toList).1) :
    (undefined : Measure k).giveAll (p :: ps) =
      (⟨some index, s.units.map fun _ => none, k.level⟩ : Measure k).giveAll (p :: ps) := by
  obtain ⟨amount, name⟩ := p
  unfold giveAll
  split
  · rfl
  · have hread : (k.family.readUnit (undefined : Measure k).set name.toList).1 =
        (k.family.readUnit (some index) name.toList).1 := hfirst
    rw [hread]
    rcases hfound : k.family.readUnit (some index) name.toList with ⟨_ | ⟨j, unit⟩, left⟩
    · rfl
    · obtain rfl := (Family.readUnit_eq_some hfound).1 index rfl
      simp only [give, undefined, hset]

/-- **The pairs of a set are given to it** if the first name decides for that set. -/
theorem giveAll_pairs_undefined (hk : k.family.Legible) (hset : k.family.sets[index]? = some s)
    {name : MeasureUnit → Rational → String} (hname : ∀ u amount, name u amount ∈ u.names)
    (hslots : slots.length = s.units.length)
    (hnonneg : ∀ amount, some amount ∈ slots → amount.negative = false)
    (hne : pairsBy name s.units slots ≠ [])
    (hfirst : ∀ p ∈ (pairsBy name s.units slots).head?,
      (k.family.readUnit none p.2.toList).1 = (k.family.readUnit (some index) p.2.toList).1) :
    (undefined : Measure k).giveAll (pairsBy name s.units slots) =
      some ⟨some index, slots, k.level⟩ := by
  have hunits : s.units = [] ++ s.units := rfl
  have hgiven := giveAll_pairs hk hset hname hunits (List.length_nil.trans List.length_nil.symm)
    hslots hnonneg k.level
  obtain ⟨p, ps, hps⟩ := List.exists_cons_of_ne_nil hne
  rw [hps] at hgiven hfirst ⊢
  rw [giveAll_undefined hset (hfirst p rfl)]
  exact hgiven

/-- The pairs of slots in lowest terms can be written, by any names of the units. -/
theorem writable_pairsBy {name : MeasureUnit → Rational → String}
    (hname : ∀ u amount, name u amount ∈ u.names) (hset : k.family.sets[index]? = some s)
    (hslots : ∀ amount, some amount ∈ slots → amount.InLowestTerms) :
    Writable k.family (pairsBy name s.units slots) := by
  intro p hp
  obtain ⟨j, u, hu, hamount, hp⟩ := mem_pairsBy_iff.mp hp
  refine ⟨hslots p.1 (List.mem_of_getElem? hamount), s, List.mem_of_getElem? hset, u,
    List.mem_of_getElem? hu, ?_⟩
  rw [hp]
  exact hname u p.1

/-- What is told of slots in lowest terms can be written. -/
theorem writable_told (hset : k.family.sets[index]? = some s)
    (hslots : ∀ amount, some amount ∈ slots → amount.InLowestTerms) :
    Writable k.family (pairs s.units (s.told slots)) := by
  refine writable_pairsBy MeasureUnit.spelling_mem_names hset fun amount hamount => ?_
  rcases UnitSet.some_mem_told hamount with hgiven | rfl
  · exact hslots amount hgiven
  · decide

/-- **What a text tells is given back** if its first spelling decides for the set of the measure. -/
theorem giveAll_told (hk : k.family.Legible) (hset : k.family.sets[index]? = some s)
    (hs : s.IsChecked) (hslots : slots.length = s.units.length)
    (hnonneg : ∀ amount, some amount ∈ slots → amount.negative = false)
    (hfirst : ∀ p ∈ (pairs s.units (s.told slots)).head?,
      (k.family.readUnit none p.2.toList).1 = (k.family.readUnit (some index) p.2.toList).1) :
    (undefined : Measure k).giveAll (pairs s.units (s.told slots)) =
      some ⟨some index, s.told slots, k.level⟩ := by
  refine giveAll_pairs_undefined hk hset MeasureUnit.spelling_mem_names
    (UnitSet.length_told hslots) (fun amount hamount => ?_) (UnitSet.pairs_told_ne_nil hs hslots)
    hfirst
  rcases UnitSet.some_mem_told hamount with hgiven | rfl
  · exact hnonneg amount hgiven
  · rfl

end Measure

end Tabletop
