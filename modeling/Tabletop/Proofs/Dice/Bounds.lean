import Mathlib.Algebra.Order.BigOperators.Group.List
import Tabletop.Proofs.Dice.Drawn
import Tabletop.Proofs.Record.Numbers

/-!
# Bounds of dice

A roll adds the faces one after the other and saturates each sum, while the lowest, the average and
the highest result are computed at once and saturated at the end. They agree all the same:

* faces are positive, so that the sums only grow: **saturating on the way is saturating at the end**
  (`outcome_eq`);
* **Shows** are the faces that dice can show; those drawn from a dice bag are among them
  (`Sound.shows_faces`), and a roll from a bag is the result for them (`Sound.roll_eq`);
* every result lies between the lowest and the highest one, as their average does, and both of them
  come up (`bounds_exact`): with ones only, and with the highest faces only.
-/

namespace Tabletop

/-- **Saturating sums** of numbers that are not negative are cut once, at the upper end. -/
theorem foldl_clamp_add {numbers : List ℤ} (hnumbers : ∀ n ∈ numbers, 0 ≤ n) :
    ∀ {total : ℤ}, Fits total →
      numbers.foldl (fun total n => clamp (total + n)) total = clamp (total + numbers.sum) := by
  induction numbers with
  | nil =>
    intro total htotal
    rw [List.foldl_nil, List.sum_nil, add_zero, clamp_eq_self htotal]
  | cons n numbers ih =>
    intro total htotal
    have hn : 0 ≤ n := hnumbers n List.mem_cons_self
    have hrest : ∀ m ∈ numbers, 0 ≤ m := fun m hm => hnumbers m (List.mem_cons_of_mem n hm)
    have hsum : 0 ≤ numbers.sum := List.sum_nonneg hrest
    -- once the upper end is reached, nothing leads back from it
    rw [List.foldl_cons, ih hrest (fits_clamp _), List.sum_cons]
    unfold Fits at htotal
    unfold clamp
    omega

namespace Dice

/-- **What dice can show**: one face for every die, from one up to the number of sides. -/
structure Shows (d : Dice) (faces : List ℤ) : Prop where
  length_eq : faces.length = d.count
  one_le : ∀ face ∈ faces, 1 ≤ face
  le_sides : ∀ face ∈ faces, face ≤ d.sides

variable {d : Dice} {faces : List ℤ}

/-- All dice show one face. -/
theorem shows_replicate {face : ℤ} (hone : 1 ≤ face) (hsides : face ≤ d.sides) :
    d.Shows (List.replicate d.count face) where
  length_eq := List.length_replicate
  one_le _ h := by rwa [List.eq_of_mem_replicate h]
  le_sides _ h := by rwa [List.eq_of_mem_replicate h]

/-- Every die shows at least one. -/
theorem Shows.count_le_sum (h : d.Shows faces) : (d.count : ℤ) ≤ faces.sum := by
  simpa [h.length_eq] using List.card_nsmul_le_sum faces 1 h.one_le

/-- No die shows more than its sides. -/
theorem Shows.sum_le_diceMax (h : d.Shows faces) : faces.sum ≤ d.diceMax := by
  simpa [h.length_eq, diceMax] using List.sum_le_card_nsmul faces d.sides h.le_sides

/-- **A roll** is the sum of modifier and faces, cut once and at least one. -/
theorem outcome_eq (hdef : d.isDefined) (hmodifier : Fits d.modifier) (h : d.Shows faces) :
    d.outcome faces = Max.max (clamp (d.modifier + faces.sum)) 1 := by
  have hpos : ∀ face ∈ faces, 0 ≤ face := fun face hface => by
    have := h.one_le face hface
    omega
  rw [outcome, if_pos hdef, foldl_clamp_add hpos hmodifier]

/-- As many dice are drawn as there are. -/
theorem Sound.drawn_eq (hd : d.Sound) (hdef : d.isDefined) : d.drawn = d.count := by
  have hsides : d.sides > 0 := Nat.pos_of_ne_zero (hd.isDefined_iff.mp hdef)
  rw [drawn, if_pos hsides, Nat.min_eq_left hd.count_le]

/-- **A dice bag** draws what dice can show. -/
theorem Sound.shows_faces (hd : d.Sound) (hdef : d.isDefined) (bag : Random.DiceBag) :
    d.Shows (bag.faces d.sides d.drawn).1 := by
  have hsides : 0 < d.sides := Nat.pos_of_ne_zero (hd.isDefined_iff.mp hdef)
  obtain ⟨hlength, hfaces⟩ := Random.DiceBag.faces_drawn hsides d.drawn bag
  exact ⟨hlength.trans (hd.drawn_eq hdef), fun face hface => (hfaces face hface).1,
    fun face hface => (hfaces face hface).2⟩

/-- **A roll from a bag** is the result for the faces that the loop draws, one die after the other. -/
theorem Sound.roll_eq (hd : d.Sound) (hdef : d.isDefined) {bag next : Random.DiceBag}
    (h : Random.DiceBag.DrawsFaces d.sides d.count bag (faces, next)) :
    d.Shows faces ∧ bag.roll d = (d.outcome faces, next) := by
  have hfaces : bag.faces d.sides d.drawn = (faces, next) := by
    rw [hd.drawn_eq hdef, Random.DiceBag.faces_eq_of_drawsFaces h]
  have hshows := hd.shows_faces hdef bag
  rw [hfaces] at hshows
  refine ⟨hshows, ?_⟩
  rw [Random.DiceBag.roll, hfaces]

/-- Every result lies between the lowest and the highest one. -/
theorem Shows.outcome_mem_bounds (hdef : d.isDefined) (hmodifier : Fits d.modifier)
    (h : d.Shows faces) : d.min ≤ d.outcome faces ∧ d.outcome faces ≤ d.max := by
  have hlow := h.count_le_sum
  have hhigh := h.sum_le_diceMax
  rw [outcome_eq hdef hmodifier h]
  exact ⟨max_le_max_right 1 (clamp_le_clamp (by omega)),
    max_le_max_right 1 (clamp_le_clamp (by omega))⟩

/-- A die of `n` sides shows between one and `n` on average. -/
theorem average_mem_bounds (hsides : d.sides ≠ 0) : d.min ≤ d.average ∧ d.average ≤ d.max := by
  have hone : (1 : ℤ) ≤ d.sides := by omega
  have hcount : (d.count : ℤ) ≤ d.count * d.sides := le_mul_of_one_le_right (by omega) hone
  unfold min max average diceMax
  rw [mul_add_one]
  exact ⟨max_le_max_right 1 (clamp_le_clamp (by omega)),
    max_le_max_right 1 (clamp_le_clamp (by omega))⟩

/-- **The bounds of dice are exact**, whatever was made, read or computed: each roll lies between
the lowest and the highest result, be its faces given or drawn from a bag, so does the average, and
both bounds come up. A roll from a bag is the result for faces that the dice show, and these are what
the loop draws for one die after the other. -/
theorem bounds_exact (h : Obtained d) (hdef : d.isDefined) :
    d.drawn = d.count ∧
      (∀ faces, d.Shows faces → d.min ≤ d.outcome faces ∧ d.outcome faces ≤ d.max) ∧
      (∀ bag : Random.DiceBag, d.min ≤ (bag.roll d).1 ∧ (bag.roll d).1 ≤ d.max) ∧
      (∀ bag : Random.DiceBag, d.Shows (bag.faces d.sides d.drawn).1 ∧
        (bag.roll d).1 = d.outcome (bag.faces d.sides d.drawn).1) ∧
      (∀ (bag next : Random.DiceBag) (faces : List ℤ),
        Random.DiceBag.DrawsFaces d.sides d.count bag (faces, next) →
          d.Shows faces ∧ bag.roll d = (d.outcome faces, next)) ∧
      (d.min ≤ d.average ∧ d.average ≤ d.max) ∧
      (∃ faces, d.Shows faces ∧ d.outcome faces = d.min) ∧
      ∃ faces, d.Shows faces ∧ d.outcome faces = d.max := by
  have hd := h.sound
  have hsides : d.sides ≠ 0 := hd.isDefined_iff.mp hdef
  have hbounds : ∀ faces, d.Shows faces → d.min ≤ d.outcome faces ∧ d.outcome faces ≤ d.max :=
    fun faces hshows => hshows.outcome_mem_bounds hdef hd.modifier_fits
  have hones : d.Shows (List.replicate d.count 1) := shows_replicate le_rfl (by omega)
  have hhighest : d.Shows (List.replicate d.count (d.sides : ℤ)) :=
    shows_replicate (by omega) le_rfl
  refine ⟨hd.drawn_eq hdef, hbounds, fun bag => hbounds _ (hd.shows_faces hdef bag),
    fun bag => ⟨hd.shows_faces hdef bag, rfl⟩, fun bag next faces hdraws => hd.roll_eq hdef hdraws,
    average_mem_bounds hsides, ⟨_, hones, ?_⟩, ⟨_, hhighest, ?_⟩⟩
  · rw [outcome_eq hdef hd.modifier_fits hones, List.sum_replicate, nsmul_one, add_comm, min]
  · rw [outcome_eq hdef hd.modifier_fits hhighest, List.sum_replicate, nsmul_eq_mul, add_comm, max,
      diceMax]

/-- Three dice whose higher results cannot be stored. -/
def brimming : Dice := ⟨3, 6, maxStored - 10⟩

/-- The lowest result of these dice can be stored, and the highest one is cut. -/
theorem bounds_exact_brimming :
    Dice.make 3 6 (maxStored - 10) = .ok brimming ∧ brimming.min = maxStored - 7 ∧
      brimming.average = maxStored ∧ brimming.max = maxStored ∧
      (∀ faces, brimming.Shows faces →
        maxStored - 7 ≤ brimming.outcome faces ∧ brimming.outcome faces ≤ maxStored) ∧
      (∃ faces, brimming.Shows faces ∧ brimming.outcome faces = maxStored - 7) ∧
      ∃ faces, brimming.Shows faces ∧ brimming.outcome faces = maxStored := by
  have hmake : Dice.make 3 6 (maxStored - 10) = .ok brimming := rfl
  obtain ⟨-, hbounds, -, -, -, -, hlowest, hhighest⟩ := bounds_exact (.make (by decide) hmake) rfl
  exact ⟨hmake, by decide, by decide, by decide, hbounds, hlowest, hhighest⟩

end Dice

end Tabletop
