import Mathlib.Algebra.Order.Floor.Div
import Mathlib.Algebra.BigOperators.Ring.Finset
import Mathlib.Order.Interval.Finset.Nat
import Tabletop.Random.DiceBag

/-!
# Numbers drawn from a bag

A number below a bound is drawn from words of 64 bits, and a word that would favour some numbers is
drawn again. How many words are refused, and what comes of a bag that is given up?

* The words that are accepted for a number lie side by side (`filter_accepts_share`), and there are
  **equally many for every number** (`card_accepts_share`). Together they are at least half of all
  words (`wordCount_le_card_accepts`);
* **Draws** is the loop itself, which goes on until a word is accepted. It draws one number
  (`Draws.unique`), and `below` draws the same unless it gives up before (`below_eq_of_draws`,
  `draws_or_givesUp`);
* **DrawsFaces** is the loop for one die after the other, and the faces of a bag are those that it
  draws (`faces_eq_of_drawsFaces`).
-/

namespace Tabletop.Random.DiceBag

/-! ## Accepted words -/

section Words

variable {k n word : ℕ}

theorem perNumber_pos (k : ℕ) : 0 < perNumber k := Nat.pow_pos (by decide)

/-- The accepted words of all numbers are at most all words, and at least half of them. -/
theorem mul_perNumber_bounds (hk : 0 < k) (hlt : k < wordCount) :
    k * perNumber k ≤ wordCount ∧ wordCount ≤ 2 * (k * perNumber k) := by
  have hlog : Nat.log2 k < 64 := (Nat.log2_lt hk.ne').mpr hlt
  have hlow : 2 ^ Nat.log2 k ≤ k := Nat.log2_self_le hk.ne'
  have hhigh : k < 2 ^ (Nat.log2 k + 1) := Nat.lt_log2_self
  have hsplit : 2 ^ Nat.log2 k * perNumber k = 2 ^ 63 := by
    rw [perNumber, Nat.pow_eq, ← Nat.pow_add, Nat.add_sub_cancel' (by omega)]
  have hlow' := Nat.mul_le_mul_right (perNumber k) hlow
  have hhigh' := Nat.mul_le_mul_right (perNumber k) hhigh.le
  rw [Nat.pow_succ, Nat.mul_right_comm] at hhigh'
  unfold wordCount
  omega

/-- A word is accepted for a number if its product with the bound lies in the first part of the
number's share. -/
theorem accepts_and_share_iff (hk : 0 < k) (hlt : k < wordCount) :
    accepts k word = true ∧ share k word = n ↔
      n * wordCount ≤ word * k ∧ word * k < n * wordCount + k * perNumber k := by
  obtain ⟨hall, -⟩ := mul_perNumber_bounds hk hlt
  have hpos := Nat.mul_pos hk (perNumber_pos k)
  have hmod := Nat.div_add_mod (word * k) wordCount
  have hrest : word * k % wordCount < wordCount := Nat.mod_lt _ (by decide)
  rw [accepts, share, zone, decide_eq_true_eq]
  constructor
  · rintro ⟨hzone, rfl⟩
    rw [Nat.mul_comm] at hmod
    omega
  · rintro ⟨hlow, hhigh⟩
    have hshare : word * k / wordCount = n :=
      Nat.div_eq_of_lt_le hlow (by rw [Nat.succ_mul]; omega)
    rw [hshare, Nat.mul_comm] at hmod
    exact ⟨by omega, hshare⟩

/-- **The words accepted for a number** lie side by side. -/
theorem filter_accepts_share (hk : 0 < k) (hlt : k < wordCount) (hn : n < k) :
    (Finset.range wordCount).filter (fun word => accepts k word ∧ share k word = n) =
      Finset.Ico (n * wordCount ⌈/⌉ k) (n * wordCount ⌈/⌉ k + perNumber k) := by
  obtain ⟨hall, -⟩ := mul_perNumber_bounds hk hlt
  have hceil : n * wordCount ⌈/⌉ k + perNumber k = (n * wordCount + k * perNumber k) ⌈/⌉ k := by
    rw [Nat.ceilDiv_eq_add_pred_div, Nat.ceilDiv_eq_add_pred_div, ← Nat.add_mul_div_left _ _ hk]
    congr 1
    omega
  have hle : ∀ bound word : ℕ, bound ⌈/⌉ k ≤ word ↔ bound ≤ word * k := fun bound word => by
    rw [ceilDiv_le_iff_le_mul hk, Nat.mul_comm]
  have hlt' : ∀ bound word : ℕ, word < bound ⌈/⌉ k ↔ word * k < bound := fun bound word => by
    rw [← Nat.not_le, hle, Nat.not_le]
  ext word
  rw [Finset.mem_filter, Finset.mem_range, accepts_and_share_iff hk hlt, Finset.mem_Ico, hceil,
    hle, hlt', and_iff_right_of_imp]
  -- the products of all words reach beyond the last share
  rintro ⟨-, hhigh⟩
  have hlast : (n + 1) * wordCount ≤ k * wordCount := Nat.mul_le_mul_right _ hn
  rw [Nat.succ_mul] at hlast
  exact Nat.lt_of_mul_lt_mul_right (a := k) (by rw [Nat.mul_comm wordCount]; omega)

/-- **Draws are without bias**: equally many words are accepted for every number below the bound. -/
theorem card_accepts_share (hk : 0 < k) (hlt : k < wordCount) (hn : n < k) :
    ((Finset.range wordCount).filter fun word => accepts k word ∧ share k word = n).card =
      perNumber k := by
  rw [filter_accepts_share hk hlt hn, Nat.card_Ico, Nat.add_sub_cancel_left]

/-- A word stands for a number below the bound. -/
theorem share_lt (hk : 0 < k) (hword : word < wordCount) : share k word < k := by
  rw [share, Nat.div_lt_iff_lt_mul (by decide), Nat.mul_comm k]
  exact Nat.mul_lt_mul_of_pos_right hword hk

/-- **At least every second word is accepted.** -/
theorem wordCount_le_card_accepts (hk : 0 < k) (hlt : k < wordCount) :
    wordCount ≤ 2 * ((Finset.range wordCount).filter fun word => accepts k word).card := by
  have hshares : ∀ word ∈ (Finset.range wordCount).filter fun word => accepts k word,
      share k word ∈ Finset.range k := fun word hword =>
    Finset.mem_range.mpr (share_lt hk (Finset.mem_range.mp (Finset.mem_filter.mp hword).1))
  have hcard : ((Finset.range wordCount).filter fun word => accepts k word).card =
      k * perNumber k := by
    rw [Finset.card_eq_sum_card_fiberwise hshares, Finset.sum_const_nat (m := perNumber k),
      Finset.card_range]
    intro n hn
    rw [Finset.filter_filter]
    exact card_accepts_share hk hlt (Finset.mem_range.mp hn)
  rw [hcard]
  exact (mul_perNumber_bounds hk hlt).2

end Words

/-! ## The loop -/

/-- **Drawing a number** below `k` from a bag, up to the first word that is accepted: the `words`-th
one. -/
inductive Draws (k : ℕ) : ℕ → DiceBag → ℕ × DiceBag → Prop
  | accepted {bag : DiceBag} (h : accepts k bag.word64.1.toNat = true) :
      Draws k 1 bag (share k bag.word64.1.toNat, bag.word64.2)
  | refused {words : ℕ} {bag : DiceBag} {result : ℕ × DiceBag}
      (h : accepts k bag.word64.1.toNat = false) (hrest : Draws k words bag.word64.2 result) :
      Draws k (words + 1) bag result

variable {k words sides n : ℕ} {bag : DiceBag} {result : ℕ × DiceBag}

/-- A number that is drawn is below the bound. -/
theorem Draws.lt (h : Draws k words bag result) (hk : 0 < k) : result.1 < k := by
  induction h with
  | accepted _ => exact share_lt hk (UInt64.toNat_lt _)
  | refused _ _ ih => exact ih

/-- **The loop draws one number**, from as many words. -/
theorem Draws.unique (h : Draws k words bag result) {words' : ℕ} {result' : ℕ × DiceBag}
    (h' : Draws k words' bag result') : words' = words ∧ result' = result := by
  induction h generalizing words' with
  | accepted hword =>
    cases h' with
    | accepted _ => exact ⟨rfl, rfl⟩
    | refused hno _ =>
      rw [hword] at hno
      cases hno
  | refused hword _ ih =>
    cases h' with
    | accepted hyes =>
      rw [hword] at hyes
      cases hyes
    | refused _ hrest =>
      obtain ⟨rfl, rfl⟩ := ih hrest
      exact ⟨rfl, rfl⟩

theorem below_succ (k tries : ℕ) (bag : DiceBag) :
    below k (tries + 1) bag =
      if accepts k bag.word64.1.toNat then (share k bag.word64.1.toNat, bag.word64.2)
      else below k tries bag.word64.2 := rfl

/-- **What the loop draws** within the tries is the number drawn. -/
theorem below_eq_of_draws (h : Draws k words bag result) :
    ∀ {tries : ℕ}, words ≤ tries → below k tries bag = result := by
  induction h with
  | accepted hword =>
    intro tries htries
    obtain ⟨tries, rfl⟩ := Nat.exists_eq_add_of_le' htries
    rw [below_succ, if_pos hword]
  | refused hword _ ih =>
    intro tries htries
    obtain ⟨tries, rfl⟩ := Nat.exists_eq_add_of_le' (Nat.one_le_of_lt htries)
    rw [below_succ, if_neg (by simp [hword])]
    exact ih (Nat.le_of_succ_le_succ htries)

/-- **A number drawn** is the one that the loop draws, or else so many words were refused. -/
theorem draws_or_givesUp (k : ℕ) : ∀ (tries : ℕ) (bag : DiceBag),
    (∃ words ≤ tries, Draws k words bag (below k tries bag)) ∨
      (below k tries bag).1 = 0 ∧ ∀ words result, Draws k words bag result → tries < words
  | 0, bag => by
    refine .inr ⟨rfl, fun words result h => ?_⟩
    cases h <;> exact Nat.succ_pos _
  | tries + 1, bag => by
    rw [below_succ]
    cases hword : accepts k bag.word64.1.toNat with
    | true => exact .inl ⟨1, Nat.succ_le_succ (Nat.zero_le _), .accepted hword⟩
    | false =>
      rcases draws_or_givesUp k tries bag.word64.2 with ⟨words, hle, h⟩ | ⟨hzero, hmore⟩
      · exact .inl ⟨words + 1, Nat.succ_le_succ hle, .refused hword h⟩
      · refine .inr ⟨hzero, fun words result h => ?_⟩
        cases h with
        | accepted hyes =>
          rw [hword] at hyes
          cases hyes
        | refused _ hrest => exact Nat.succ_lt_succ (hmore _ _ hrest)

/-- **A number below a bound** is below it, however often it is drawn again. -/
theorem below_lt (hk : 0 < k) (tries : ℕ) (bag : DiceBag) : (below k tries bag).1 < k := by
  rcases draws_or_givesUp k tries bag with ⟨words, -, h⟩ | ⟨hzero, -⟩
  · exact h.lt hk
  · rwa [hzero]

/-! ## Faces -/

/-- **Drawing the faces** of dice one after the other. No die takes more words than a bag tries. -/
inductive DrawsFaces (sides : ℕ) : ℕ → DiceBag → List ℤ × DiceBag → Prop
  | none {bag : DiceBag} : DrawsFaces sides 0 bag ([], bag)
  | die {n words face : ℕ} {rest : List ℤ} {bag next last : DiceBag}
      (h : Draws sides words bag (face, next)) (hwords : words ≤ maxTries)
      (hrest : DrawsFaces sides n next (rest, last)) :
      DrawsFaces sides (n + 1) bag ((face + 1 : ℤ) :: rest, last)

theorem faces_succ (sides n : ℕ) (bag : DiceBag) :
    bag.faces sides (n + 1) =
      (((below sides maxTries bag).1 + 1 : ℤ) :: ((below sides maxTries bag).2.faces sides n).1,
        ((below sides maxTries bag).2.faces sides n).2) := rfl

/-- **The faces of a bag** are those that the loop draws. -/
theorem faces_eq_of_drawsFaces {drawn : List ℤ × DiceBag} (h : DrawsFaces sides n bag drawn) :
    bag.faces sides n = drawn := by
  induction h with
  | none => rfl
  | die h hwords _ ih => rw [faces_succ, below_eq_of_draws h hwords, ih]

/-- **Faces that are drawn** are faces of a die with so many sides. -/
theorem faces_drawn (hsides : 0 < sides) (n : ℕ) :
    ∀ bag : DiceBag, (bag.faces sides n).1.length = n ∧
      ∀ face ∈ (bag.faces sides n).1, 1 ≤ face ∧ face ≤ sides := by
  induction n with
  | zero => exact fun _ => ⟨rfl, by rintro face ⟨⟩⟩
  | succ n ih =>
    intro bag
    obtain ⟨hlength, hfaces⟩ := ih (below sides maxTries bag).2
    have hlt : (below sides maxTries bag).1 < sides := below_lt hsides maxTries bag
    rw [faces_succ]
    refine ⟨congrArg (· + 1) hlength, fun face hface => ?_⟩
    rcases List.mem_cons.mp hface with rfl | hface
    · omega
    · exact hfaces face hface

end Tabletop.Random.DiceBag
