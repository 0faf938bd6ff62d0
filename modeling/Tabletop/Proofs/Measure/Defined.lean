import Tabletop.Proofs.Measure.Arithmetic
import Tabletop.Proofs.Measure.Read
import Tabletop.Proofs.Rational.Notation
import Tabletop.Proofs.Rational.Operation

/-!
# Amounts that are defined

A slot of a measure may be empty, but an undefined amount never gets into one. **Slots.AreDefined**
says so of the slots of a measure; it holds of what is read (`areDefined_of_read`), and sums,
products with defined factors and simplified measures keep it.
-/

namespace Tabletop

open Rational

/-- No amount given is undefined. -/
def Slots.AreDefined (slots : Slots) : Prop :=
  ∀ amount, some amount ∈ slots → amount.isDefined = true

/-- What is read is defined. -/
theorem Rational.isDefined_of_read {cs rest : List Char} {r : Rational}
    (h : read cs = (some r, rest)) : r.isDefined = true := by
  obtain ⟨q, rfl⟩ := exists_ofRat_of_read h
  exact isDefined_ofRat q

/-- **What sums keep** is kept where one more amount is given to a slot. -/
theorem Slots.forall_modify_addSlot {P : Rational → Prop}
    (hadd : ∀ r s, P r → P s → P (r.add s)) {slots : Slots}
    (h : ∀ amount, some amount ∈ slots → P amount) {amount : Rational} (hamount : P amount)
    (unit : ℕ) :
    ∀ result, some result ∈ slots.modify unit (fun slot => Measure.addSlot slot (some amount)) →
      P result := by
  intro result hresult
  obtain ⟨place, hplace⟩ := List.mem_iff_getElem?.mp hresult
  rw [List.getElem?_modify] at hplace
  obtain ⟨slot, hslot, heq⟩ := Option.map_eq_some_iff.mp hplace
  split at heq
  · cases slot with
    | none =>
      cases heq
      exact hamount
    | some given =>
      cases heq
      exact hadd given amount (h given (List.mem_of_getElem? hslot)) hamount
  · subst heq
    exact h result (List.mem_of_getElem? hslot)

namespace Slots.AreDefined

variable {slots others : Slots}

theorem of_cons {slot : Option Rational} (h : Slots.AreDefined (slot :: slots)) :
    slots.AreDefined :=
  fun amount ha => h amount (List.mem_cons_of_mem slot ha)

theorem cons {slot : Option Rational} (hslot : ∀ amount ∈ slot, amount.isDefined = true)
    (h : slots.AreDefined) : Slots.AreDefined (slot :: slots) := by
  intro amount hmem
  rcases List.mem_cons.mp hmem with hmem | hmem
  · exact hslot amount hmem.symm
  · exact h amount hmem

/-- Empty slots give nothing. -/
theorem empty {α : Type} (units : List α) : Slots.AreDefined (units.map fun _ => none) := by
  intro amount hmem
  simp at hmem

/-- Two slots together are defined if both are. -/
theorem addSlot {x y : Option Rational} (hx : ∀ a ∈ x, a.isDefined = true)
    (hy : ∀ a ∈ y, a.isDefined = true) : ∀ a ∈ Measure.addSlot x y, a.isDefined = true := by
  cases x with
  | none => exact hy
  | some a =>
    cases y with
    | none => exact hx
    | some b =>
      rintro c ⟨⟩
      rw [Rational.isDefined_add, hx a rfl, Bool.true_or]

/-- Sums of slots are defined, slot by slot. -/
theorem zipWith_addSlot (h : slots.AreDefined) (h' : others.AreDefined) :
    Slots.AreDefined (List.zipWith Measure.addSlot slots others) := by
  induction slots generalizing others with
  | nil => rintro amount ⟨⟩
  | cons slot slots ih =>
    cases others with
    | nil => rintro amount ⟨⟩
    | cons other others =>
      refine cons (addSlot ?_ ?_) (ih h.of_cons h'.of_cons)
      · rintro a rfl
        exact h a List.mem_cons_self
      · rintro a rfl
        exact h' a List.mem_cons_self

/-- What keeps amounts defined keeps slots defined. -/
theorem map {f : Rational → Rational} (h : slots.AreDefined)
    (hf : ∀ amount, amount.isDefined = true → (f amount).isDefined = true) :
    Slots.AreDefined (slots.map (Option.map f)) := by
  intro amount hmem
  obtain ⟨slot, hslot, hmap⟩ := List.mem_map.mp hmem
  obtain ⟨a, rfl, rfl⟩ := Option.map_eq_some_iff.mp hmap
  exact hf a (h a hslot)

end Slots.AreDefined

namespace UnitSet

/-- Spreading a defined total leaves nothing undefined in a slot. -/
theorem areDefined_spread {level : ℤ} :
    ∀ {units : List MeasureUnit} {total : Rational},
      (∀ u ∈ units, 0 < u.multiplier ∧ 0 < u.divisor) → total.isDefined = true →
      (spread level units total).AreDefined
  | [], _, _, _ => by rintro amount ⟨⟩
  | [unit], total, hpos, htotal => by
    refine .cons ?_ (by rintro amount ⟨⟩)
    rintro amount ⟨⟩
    exact (isDefined_scaleBy _ _ (hpos unit List.mem_cons_self).1.ne').trans htotal
  | unit :: next :: rest, total, hpos, htotal => by
    obtain ⟨hm, hd⟩ := hpos unit List.mem_cons_self
    have hpos' : ∀ u ∈ next :: rest, 0 < u.multiplier ∧ 0 < u.divisor :=
      fun u hu => hpos u (List.mem_cons_of_mem unit hu)
    have hamount : (unit.fromBase total).isDefined = true :=
      (isDefined_scaleBy _ _ hm.ne').trans htotal
    have hleft {r : Rational} (hr : r.isDefined = true) : (unit.asBase r).isDefined = true :=
      (isDefined_scaleBy _ _ hd.ne').trans hr
    rw [spread]
    split
    · refine .cons ?_ (.empty (next :: rest))
      rintro amount ⟨⟩
      exact hamount
    · split
      · refine .cons ?_ (areDefined_spread hpos' (hleft ?_))
        · rintro amount ⟨⟩
          exact isDefined_ofInt _
        · rw [subtract, Rational.isDefined_add, hamount, Bool.true_or]
      · exact .cons (by rintro amount ⟨⟩) (areDefined_spread hpos' (hleft hamount))

/-- Converting a defined total leaves nothing undefined in a slot. -/
theorem areDefined_convert {s : UnitSet} (hs : s.IsChecked) {normalized : Rational}
    (h : normalized.isDefined = true) (level : ℤ) (simplify : Bool) :
    (s.convert normalized level simplify).AreDefined := by
  have htotal := (isDefined_scaleBy normalized s.multiplier hs.divisor_pos.ne').trans h
  unfold convert
  cases simplify with
  | true => exact areDefined_spread hs.units_pos htotal
  | false =>
    intro amount hmem
    rcases List.mem_or_eq_of_mem_set hmem with hmem | heq
    · simp at hmem
    · cases heq
      exact htotal

end UnitSet

namespace Measure

variable {k : Kind} {m n : Measure k}

/-- **What sums keep**, and the amounts that are read have, all amounts of a measure have that is
read. -/
theorem forall_readOnto {P : Rational → Prop} (hadd : ∀ r s, P r → P s → P (r.add s))
    (hread : ∀ {cs rest amount}, Rational.read cs = (some amount, rest) →
      amount.negative = false → P amount)
    (hm : ∀ amount, some amount ∈ m.slots → P amount) (cs : List Char) :
    ∀ amount, some amount ∈ (m.readOnto cs).1.slots → P amount := by
  induction m, cs using Measure.readOnto.induct with
  | case1 m cs rest hnone =>
    rw [readOnto_of_none hnone]
    exact hm
  | case2 m cs amount index unit rest hpair ih =>
    obtain ⟨behind, hamount, hsign, -⟩ := Family.readPair_eq_some hpair
    rw [readOnto_of_some hpair]
    apply ih
    unfold give
    dsimp only
    split
    · -- the first unit decides for a set, whose slots are empty
      refine Slots.forall_modify_addSlot hadd ?_ (hread hamount hsign) unit
      intro given hgiven
      simp at hgiven
    · exact Slots.forall_modify_addSlot hadd hm (hread hamount hsign) unit

/-- **What holds of the amounts in a text**, and of sums of such amounts, holds of all slots that
are read. -/
theorem forall_of_read {P : Rational → Prop} (hadd : ∀ r s, P r → P s → P (r.add s))
    (hread : ∀ {cs rest amount}, Rational.read cs = (some amount, rest) →
      amount.negative = false → P amount)
    {cs rest : List Char} (h : read k cs = (some m, rest)) :
    ∀ amount, some amount ∈ m.slots → P amount := by
  have hundefined : ∀ amount, some amount ∈ (undefined : Measure k).slots → P amount := by
    rintro amount ⟨⟩
  have hall := forall_readOnto hadd hread hundefined cs
  rwa [read_eq_some h] at hall

/-- No undefined amount is read. -/
theorem areDefined_of_read {cs rest : List Char} (h : read k cs = (some m, rest)) :
    m.slots.AreDefined :=
  forall_of_read (fun r s hr _ => by rw [Rational.isDefined_add, hr, Bool.true_or])
    (fun hamount _ => Rational.isDefined_of_read hamount) h

theorem areDefined_simplify (hk : k.family.IsChecked) (hm : m.slots.AreDefined) :
    m.simplify.slots.AreDefined := by
  unfold simplify
  split
  · rename_i s hactive
    obtain ⟨index, -, hset⟩ := Option.bind_eq_some_iff.mp hactive
    have hs := hk s (List.mem_of_getElem? hset)
    exact UnitSet.areDefined_spread hs.units_pos (UnitSet.isDefined_asBase _ _)
  · exact hm

theorem areDefined_multiply (hk : k.family.IsChecked) (hm : m.slots.AreDefined) {factor : Rational}
    (hfactor : factor.isDefined = true) : (m.multiply factor).slots.AreDefined :=
  areDefined_simplify hk (m := m.mapSlots (·.multiply factor))
    (hm.map fun amount ha => by rw [Rational.isDefined_multiply, ha, hfactor, Bool.true_and])

theorem areDefined_converted (hk : k.family.IsChecked) (hwf : m.WellFormed)
    (hm : m.slots.AreDefined) (index : ℕ) (simplify : Bool) :
    (m.converted index simplify).slots.AreDefined := by
  unfold converted
  split
  · exact hm
  · rename_i s hset
    split
    · exact hm
    · rename_i hother
      have hdef : m.isDefined = true := by simp_all
      refine UnitSet.areDefined_convert (hk s (List.mem_of_getElem? hset)) ?_ _ _
      rw [isDefined_normalized hk hwf, hdef]

theorem areDefined_add (hk : k.family.IsChecked) (hwf : n.WellFormed) (hm : m.slots.AreDefined)
    (hn : n.slots.AreDefined) : (m.add n).slots.AreDefined := by
  unfold add
  split
  · exact hn
  · split
    · exact hm.zipWith_addSlot (areDefined_converted hk hwf hn _ _)
    · exact hm

end Measure

end Tabletop
