import Tabletop.Value.Basic

/-!
# Sums of values

When two values can be added, and what is left of the first one in the sum.

* **`Value.canAdd` decides `Value.add`** (`exists_add_iff`): values of one kind can be added, save for
  two dice that both roll and have different sides (`canAdd_iff`);
* **a sum stays with its kind** (`kind_of_add`), and **adding makes a value no more addable**
  (`canAdd_of_add`): dice that roll keep their sides, whatever is added to them.
-/

namespace Tabletop

namespace Dice

/-- Dice can be added unless both roll and have different sides. -/
theorem canAdd_iff {d e : Dice} :
    d.canAdd e = true ↔ (0 < d.count → 0 < e.count → d.sides = e.sides) := by
  simp only [canAdd, Bool.or_eq_true, beq_iff_eq]
  omega

theorem canAdd_comm (d e : Dice) : d.canAdd e = e.canAdd d := by
  rw [Bool.eq_iff_iff, canAdd_iff, canAdd_iff]
  exact ⟨fun h he hd => (h hd he).symm, fun h hd he => (h he hd).symm⟩

theorem isDefined_of_count {d : Dice} (h : 0 < d.count) : d.isDefined = true := by
  simp [isDefined, h]

/-- Dice are added exactly if they can be. -/
theorem exists_add_iff {d e : Dice} : (∃ s, d.add e = .ok s) ↔ d.canAdd e = true := by
  rw [canAdd_iff]
  constructor
  · rintro ⟨s, hs⟩ hd he
    refine Decidable.byContradiction fun hne => ?_
    simp [add, isDefined_of_count hd, isDefined_of_count he, hd, he, hne] at hs
  · intro h
    unfold add
    split
    · exact ⟨e, rfl⟩
    split
    · exact ⟨d, rfl⟩
    rw [if_neg fun ⟨hd, he, hne⟩ => hne (h hd he)]
    exact ⟨_, rfl⟩

/-- Dice that roll go on rolling, with the sides they have. -/
theorem rolls_of_add {d e s : Dice} (h : d.add e = .ok s) (hd : 0 < d.count) :
    0 < s.count ∧ s.sides = d.sides := by
  rw [add, if_neg (by simp [isDefined_of_count hd])] at h
  split at h
  · obtain rfl := Except.ok.inj h
    exact ⟨hd, rfl⟩
  split at h
  · cases h
  · obtain rfl := Except.ok.inj h
    have hcount : 0 < Min.min (d.count + e.count) maxCount := by
      unfold maxCount
      omega
    exact ⟨hcount, by simp⟩

/-- What can be added to a sum can be added to its second operand. -/
theorem canAdd_of_add {d e s f : Dice} (h : d.add e = .ok s) (hs : s.canAdd f = true) :
    d.canAdd f = true := by
  rw [canAdd_iff] at hs ⊢
  intro hd hf
  obtain ⟨hcount, hsides⟩ := rolls_of_add h hd
  rw [← hsides]
  exact hs hcount hf

end Dice

namespace Value

theorem map_eq_ok {ε α β : Type} {f : α → β} {x : Except ε α} {b : β} (h : x.map f = .ok b) :
    ∃ a, x = .ok a ∧ f a = b := by
  cases x with
  | error e => cases h
  | ok a => exact ⟨a, rfl, Except.ok.inj h⟩

/-- Values of one kind can be added; for dice it depends on their sides. -/
theorem canAdd_iff {v w : Value} :
    v.canAdd w = true ↔
      v.kind = w.kind ∧ ∀ d e, v = .dice d → w = .dice e → d.canAdd e = true := by
  cases v <;> cases w <;> simp [canAdd, kind]

theorem canAdd_comm (v w : Value) : v.canAdd w = w.canAdd v := by
  rw [Bool.eq_iff_iff, canAdd_iff, canAdd_iff, eq_comm (a := v.kind)]
  refine and_congr_right fun _ => ⟨fun h e d he hd => ?_, fun h d e hd he => ?_⟩
  · rw [Dice.canAdd_comm]
    exact h d e hd he
  · rw [Dice.canAdd_comm]
    exact h e d he hd

/-- **Two values can be added** exactly if it is said of them that they can. -/
theorem exists_add_iff {v w : Value} : (∃ s, v.add w = .ok s) ↔ v.canAdd w = true := by
  cases v with
  | number m => cases w <;> simp [add, canAdd, Quantity.add, Except.map]
  | rational r => cases w <;> simp [add, canAdd]
  | dice d =>
    cases w with
    | dice e =>
      rw [canAdd, ← Dice.exists_add_iff, add]
      cases d.add e <;> simp [Except.map]
    | _ => simp [add, canAdd]
  | measure d m =>
    cases w with
    | measure e n =>
      by_cases h : e = d
      · simp [add, canAdd, h]
      · simp [add, canAdd, h, Ne.symm h]
    | _ => simp [add, canAdd]

/-- What a sum has of the first value: its kind, and dice are added as dice. -/
theorem add_cases {v w s : Value} (h : v.add w = .ok s) :
    s.kind = v.kind ∧
      ∀ d, v = .dice d → ∃ e t, w = .dice e ∧ s = .dice t ∧ d.add e = .ok t := by
  unfold add at h
  split at h
  case h_1 =>
    obtain ⟨n, -, rfl⟩ := map_eq_ok h
    exact ⟨rfl, nofun⟩
  case h_2 =>
    cases h
    exact ⟨rfl, nofun⟩
  case h_3 d e =>
    obtain ⟨t, ht, rfl⟩ := map_eq_ok h
    refine ⟨rfl, fun d' hd => ?_⟩
    cases hd
    exact ⟨e, t, rfl, rfl, ht⟩
  case h_4 =>
    split at h <;> cases h
    exact ⟨rfl, nofun⟩
  case h_5 => cases h

/-- **Adding makes no value more addable**: what can be added to a sum could be added before. -/
theorem canAdd_of_add {v w s x : Value} (h : v.add w = .ok s) (hx : s.canAdd x = true) :
    v.canAdd x = true := by
  obtain ⟨hkind, hdice⟩ := add_cases h
  obtain ⟨hx, hsides⟩ := canAdd_iff.mp hx
  refine canAdd_iff.mpr ⟨hkind ▸ hx, fun d f hd hf => ?_⟩
  obtain ⟨e, t, -, ht, hadd⟩ := hdice d hd
  exact Dice.canAdd_of_add hadd (hsides t f ht hf)

/-- **Two values of one kind that cannot be added** are dice that roll, with different sides. -/
theorem exists_dice_of_not_canAdd {v w : Value} (hkind : v.kind = w.kind)
    (h : ¬ v.canAdd w = true) :
    ∃ d e, v = .dice d ∧ w = .dice e ∧ d.sides ≠ e.sides ∧ 0 < d.count ∧ 0 < e.count := by
  cases v <;> cases w <;> cases hkind
  case dice.dice d e =>
    rw [canAdd, Dice.canAdd_iff] at h
    exact ⟨d, e, rfl, rfl, by omega⟩
  all_goals exact absurd (by simp [canAdd]) h

end Value

end Tabletop
