import Mathlib.Order.Bounds.Basic
import Tabletop.Modifier.Basic

/-!
# Conditional ranges

A condition holds or it does not, and then it does so for all bonuses that it guards. Which totals can
a chain come to, and are its range's ends the least and the greatest of them?

* **totalWhen** is the total where it is known which conditions hold. None is less than the least end
  (`minValue_le_totalWhen`), because no bonus counts less than its **least**.
* Two totals, the second one where all conditions are turned round, add up to both ends
  (`totalWhen_add_totalWhen_not`). So none is greater than the greatest end, and all that is left to
  ask is whether the least end is a total.
* It is one if every condition can be told what is least for all bonuses it guards. A condition that
  guards a bonus and a penalty cannot: it would have to hold for one of them only. **IsUnmixed** says
  that there is none.

So the range is exact **exactly if no condition guards both a bonus and a penalty**
(`range_exact_iff`).
-/

namespace Tabletop

namespace Bonus

/-! ## Sums of what bonuses count -/

variable {f g : Bonus → Int} {bs : List Bonus}

theorem sum_le_sum (h : ∀ b ∈ bs, f b ≤ g b) : sum f bs ≤ sum g bs := by
  induction bs with
  | nil => exact Int.le_refl 0
  | cons b bs ih =>
    obtain ⟨hb, hbs⟩ := List.forall_mem_cons.mp h
    have hrest := ih hbs
    rw [sum_cons, sum_cons]
    omega

/-- Where nothing counts more than another time, the sums are equal only if everything counts the
same. -/
theorem sum_eq_sum_iff (h : ∀ b ∈ bs, f b ≤ g b) :
    sum f bs = sum g bs ↔ ∀ b ∈ bs, f b = g b := by
  induction bs with
  | nil => exact iff_of_true rfl fun b hb => absurd hb List.not_mem_nil
  | cons b bs ih =>
    obtain ⟨hb, hbs⟩ := List.forall_mem_cons.mp h
    have hrest := sum_le_sum hbs
    rw [List.forall_mem_cons, ← ih hbs, sum_cons, sum_cons]
    omega

theorem sum_add_sum (f g : Bonus → Int) (bs : List Bonus) :
    sum f bs + sum g bs = sum (fun b => f b + g b) bs := by
  induction bs with
  | nil => rfl
  | cons b bs ih =>
    rw [sum_cons, sum_cons, sum_cons, ← ih]
    omega

/-! ## One bonus -/

/-- What a bonus counts where `holds` tells which conditions hold. -/
def countWhen (holds : String → Bool) (b : Bonus) : Int :=
  match b.condition with
  | none => b.value
  | some condition => if holds condition then b.value else 0

variable (holds : String → Bool) (b : Bonus)

/-- No bonus counts less than its least. -/
theorem least_le_countWhen : b.least ≤ b.countWhen holds := by
  rw [least, countWhen]
  cases b.condition with
  | none => exact Int.le_refl b.value
  | some condition =>
    simp only [Option.isSome_some, if_true]
    split <;> omega

/-- What a bonus counts under a condition, and without it. -/
theorem countWhen_add_countWhen_not :
    b.countWhen holds + b.countWhen (fun condition => !holds condition) = b.least + b.most := by
  rw [least, most, countWhen, countWhen]
  cases b.condition with
  | none => rfl
  | some condition =>
    simp only [Option.isSome_some, if_true]
    cases holds condition with
    | true =>
      simp only [Bool.not_true, Bool.false_eq_true, if_true, if_false]
      omega
    | false =>
      simp only [Bool.not_false, Bool.false_eq_true, if_true, if_false]
      omega

/-- **A bonus counts least** where its condition holds for a penalty, and fails for a bonus. -/
theorem countWhen_eq_least_iff : b.countWhen holds = b.least ↔
    ∀ condition ∈ b.condition,
      (holds condition = true → b.value ≤ 0) ∧ (holds condition = false → 0 ≤ b.value) := by
  rw [least, countWhen]
  cases b.condition with
  | none => exact iff_of_true rfl (by rintro condition ⟨⟩)
  | some condition =>
    simp only [Option.isSome_some, if_true, Option.mem_def, Option.some.injEq, forall_eq']
    cases holds condition <;> simp

end Bonus

namespace Modifier

open Bonus

/-! ## Chains -/

/-- The total of a chain where `holds` tells which conditions hold; what it tells of conditions that
are not in the chain does not matter. -/
def totalWhen (m : Modifier) (holds : String → Bool) : Int := sum (countWhen holds) m.links

/-- No condition guards both a bonus and a penalty. -/
def IsUnmixed (m : Modifier) : Prop :=
  ∀ a ∈ m.links, ∀ b ∈ m.links, a.condition = b.condition → a.condition.isSome = true →
    a.value < 0 → b.value ≤ 0

instance (m : Modifier) : Decidable m.IsUnmixed := by
  unfold IsUnmixed
  infer_instance

/-- Whether a condition guards a penalty. -/
def guardsPenalty (m : Modifier) (condition : String) : Bool :=
  m.links.any fun b => b.condition = some condition ∧ b.value < 0

variable (m : Modifier)

/-- **The lowest value is a lower bound** of all totals. -/
theorem minValue_le_totalWhen (holds : String → Bool) : m.minValue ≤ m.totalWhen holds :=
  sum_le_sum fun b _ => least_le_countWhen holds b

/-- **Totals where all conditions are turned round** add up to the ends of the range. -/
theorem totalWhen_add_totalWhen_not (holds : String → Bool) :
    m.totalWhen holds + m.totalWhen (fun condition => !holds condition) =
      m.minValue + m.maxValue := by
  rw [totalWhen, totalWhen, minValue, maxValue, sum_add_sum, sum_add_sum]
  exact congrArg (sum · m.links) (funext (countWhen_add_countWhen_not holds))

/-- **The highest value is an upper bound** of all totals. -/
theorem totalWhen_le_maxValue (holds : String → Bool) : m.totalWhen holds ≤ m.maxValue := by
  have hsum := m.totalWhen_add_totalWhen_not holds
  have hleast := m.minValue_le_totalWhen fun condition => !holds condition
  omega

variable {m}

/-- A total is the least one the range allows if every bonus counts least. -/
theorem totalWhen_eq_minValue_iff {holds : String → Bool} : m.totalWhen holds = m.minValue ↔
    ∀ b ∈ m.links, b.countWhen holds = b.least := by
  rw [eq_comm, totalWhen, minValue, sum_eq_sum_iff fun b _ => least_le_countWhen holds b]
  exact forall₂_congr fun _ _ => eq_comm

/-- Where the conditions that hold are those of the penalties, every bonus counts least. -/
theorem IsUnmixed.totalWhen_guardsPenalty (h : m.IsUnmixed) :
    m.totalWhen m.guardsPenalty = m.minValue := by
  refine totalWhen_eq_minValue_iff.mpr fun b hb => (countWhen_eq_least_iff _ b).mpr ?_
  intro condition hcondition
  have hguards : m.guardsPenalty condition = true ↔
      ∃ a ∈ m.links, a.condition = some condition ∧ a.value < 0 := by
    simp only [guardsPenalty, List.any_eq_true, decide_eq_true_eq]
  constructor
  · intro hholds
    obtain ⟨a, ha, hguard, hpenalty⟩ := hguards.mp hholds
    have hsame : a.condition = b.condition := hguard.trans hcondition.symm
    exact h a ha b hb hsame (by rw [hguard]; rfl) hpenalty
  · intro hfails
    by_contra! hpenalty
    rw [hguards.mpr ⟨b, hb, hcondition, hpenalty⟩] at hfails
    cases hfails

/-- **The least end of the range is a total** exactly if no condition is mixed. -/
theorem exists_totalWhen_eq_minValue_iff :
    (∃ holds, m.totalWhen holds = m.minValue) ↔ m.IsUnmixed := by
  constructor
  · rintro ⟨holds, htotal⟩ a ha b hb hsame hsome hpenalty
    have hcounts := totalWhen_eq_minValue_iff.mp htotal
    obtain ⟨condition, hcondition⟩ := Option.isSome_iff_exists.mp hsome
    -- the penalty needs the condition to hold, and then the other counts, too
    have hholds : holds condition = true := by
      by_contra! hfails
      have hnonneg := ((countWhen_eq_least_iff holds a).mp (hcounts a ha) condition hcondition).2
        (Bool.eq_false_iff.mpr hfails)
      omega
    have hcondition' : b.condition = some condition := hsame ▸ hcondition
    exact ((countWhen_eq_least_iff holds b).mp (hcounts b hb) condition hcondition').1 hholds
  · intro h
    exact ⟨_, h.totalWhen_guardsPenalty⟩

/-- The greatest end is a total if the least one is, where the conditions are turned round. -/
theorem exists_totalWhen_eq_maxValue_iff :
    (∃ holds, m.totalWhen holds = m.maxValue) ↔ ∃ holds, m.totalWhen holds = m.minValue := by
  constructor <;> rintro ⟨holds, htotal⟩ <;> refine ⟨fun condition => !holds condition, ?_⟩ <;>
    have hsum := m.totalWhen_add_totalWhen_not holds <;> omega

/-- The lowest value comes up exactly if no condition guards both a bonus and a penalty. -/
theorem isLeast_minValue_iff :
    IsLeast (Set.range m.totalWhen) m.minValue ↔ m.IsUnmixed := by
  rw [← exists_totalWhen_eq_minValue_iff]
  exact and_iff_left (Set.forall_mem_range.mpr m.minValue_le_totalWhen)

/-- The highest value comes up under the same condition. -/
theorem isGreatest_maxValue_iff :
    IsGreatest (Set.range m.totalWhen) m.maxValue ↔ m.IsUnmixed := by
  rw [← exists_totalWhen_eq_minValue_iff, ← exists_totalWhen_eq_maxValue_iff]
  exact and_iff_left (Set.forall_mem_range.mpr m.totalWhen_le_maxValue)

/-- **The range is exact exactly if no condition guards both a bonus and a penalty**: then its ends are
the least and the greatest total, and otherwise neither of them is a total. None is ever beyond it. -/
theorem range_exact_iff (m : Modifier) :
    (∀ holds, m.minValue ≤ m.totalWhen holds ∧ m.totalWhen holds ≤ m.maxValue) ∧
      (IsLeast (Set.range m.totalWhen) m.minValue ↔ m.IsUnmixed) ∧
      (IsGreatest (Set.range m.totalWhen) m.maxValue ↔ m.IsUnmixed) :=
  ⟨fun holds => ⟨m.minValue_le_totalWhen holds, m.totalWhen_le_maxValue holds⟩,
    isLeast_minValue_iff, isGreatest_maxValue_iff⟩

/-- **A range that is not exact**: a bonus and a penalty under one condition come to one together, or
to nothing, and either end has only one of them. -/
theorem range_not_exact_raging :
    let m : Modifier := ⟨⟨3, .dodge, some "raging"⟩, [⟨-2, .armor, some "raging"⟩]⟩
    (m.minValue = -2 ∧ m.maxValue = 3) ∧
      (∀ holds, m.totalWhen holds = 1 ∨ m.totalWhen holds = 0) ∧
      ¬ IsLeast (Set.range m.totalWhen) m.minValue ∧
      ¬ IsGreatest (Set.range m.totalWhen) m.maxValue := by
  intro m
  have hmixed : ¬ m.IsUnmixed := by decide
  refine ⟨by decide, fun holds => ?_, mt isLeast_minValue_iff.mp hmixed,
    mt isGreatest_maxValue_iff.mp hmixed⟩
  change (if holds "raging" then 3 else 0) + ((if holds "raging" then -2 else 0) + 0) = 1 ∨
    (if holds "raging" then 3 else 0) + ((if holds "raging" then -2 else 0) + 0) = 0
  cases holds "raging" with
  | true => exact .inl rfl
  | false => exact .inr rfl

end Modifier

end Tabletop
