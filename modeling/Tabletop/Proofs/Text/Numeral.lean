import Tabletop.Text.Numeral

/-!
# Numerals read back

A numeral determines its number, also in front of other text that does not go on with a digit.

* the value of the **digits** of a magnitude is that magnitude (`value_digits`);
* the sign and the digits of a numeral are found again (`splitSign_plain`,
  `ofDigits_digits_natAbs`);
* **EndsNumeral** is said of a text that a numeral in front of it does not run into; there the
  numeral and the text behind it can be told apart (`plain_append_inj`);
* **Denotes** tells all the numerals of a number, with a plus or with zeros in front; those that are
  written are among them (`denotes_plain`, `denotes_signed`).
-/

namespace Tabletop.Numeral

/-- The text does not begin with a digit. -/
def EndsNumeral (cs : List Char) : Prop := ∀ c ∈ cs.head?, c.isDigit = false

theorem endsNumeral_cons {c : Char} (h : c.isDigit = false) (cs : List Char) :
    EndsNumeral (c :: cs) := by
  rintro d ⟨⟩
  exact h

/-! ## Digits -/

theorem isDigit_digit {n : Nat} (h : n < 10) : (digit n).isDigit = true := by
  revert n
  decide

/-- Digits stand in the order of their numbers, from zero on. -/
theorem toNat_digit {n : Nat} (h : n < 10) : (digit n).toNat = 48 + n := by
  revert n
  decide

/-- A digit more makes ten times the value, and what the digit stands for. -/
theorem value_append_singleton (cs : List Char) (c : Char) :
    value (cs ++ [c]) = 10 * value cs + (c.toNat - 48) := by
  rw [value, List.foldl_append]
  rfl

/-- **The digits of a magnitude** have it as their value. -/
theorem value_digits (n : Nat) : value (digits n) = n := by
  induction n using digits.induct with
  | case1 n h =>
    rw [digits, if_pos h]
    have hd := toNat_digit h
    simp only [value, List.foldl_cons, List.foldl_nil]
    omega
  | case2 n h ih =>
    rw [digits, if_neg h, value_append_singleton, ih, toNat_digit (Nat.mod_lt n (by decide))]
    omega

theorem isDigit_of_mem_digits (n : Nat) : ∀ c ∈ digits n, c.isDigit = true := by
  induction n using digits.induct with
  | case1 n h =>
    rw [digits, if_pos h]
    intro c hc
    rw [List.mem_singleton.mp hc]
    exact isDigit_digit h
  | case2 n h ih =>
    rw [digits, if_neg h]
    intro c hc
    rcases List.mem_append.mp hc with hc | hc
    · exact ih c hc
    · rw [List.mem_singleton.mp hc]
      exact isDigit_digit (Nat.mod_lt n (by decide))

/-- Every number has a digit, zero too. -/
theorem digits_ne_nil (n : Nat) : digits n ≠ [] := by
  rw [digits]
  split
  · exact List.cons_ne_nil _ _
  · simp

/-- Only zero is written with a zero in front. -/
theorem eq_zero_of_head_digits {n : Nat} (h : (digits n).head? = some '0') : n = 0 := by
  induction n using digits.induct with
  | case1 n hlt =>
    rw [digits, if_pos hlt] at h
    have hd := toNat_digit hlt
    rw [Option.some.inj h] at hd
    have hzero : '0'.toNat = 48 := rfl
    omega
  | case2 n hge ih =>
    rw [digits, if_neg hge, List.head?_append, Option.or_of_isSome
      (List.isSome_head?.mpr (digits_ne_nil _))] at h
    have hquotient := ih h
    omega

theorem takeWhile_isDigit {cs : List Char} (h : EndsNumeral cs) :
    cs.takeWhile Char.isDigit = [] := by
  cases cs with
  | nil => rfl
  | cons c cs => rw [List.takeWhile_cons, h c rfl, if_neg Bool.false_ne_true]

/-- A row of digits ends where what follows does not go on with digits. -/
theorem span_digits {ds cs : List Char} (hds : ∀ c ∈ ds, c.isDigit = true) (h : EndsNumeral cs) :
    (ds ++ cs).takeWhile Char.isDigit = ds ∧ (ds ++ cs).dropWhile Char.isDigit = cs := by
  have htake : (ds ++ cs).takeWhile Char.isDigit = ds := by
    rw [List.takeWhile_append_of_pos hds, takeWhile_isDigit h, List.append_nil]
  have hall := List.takeWhile_append_dropWhile (p := Char.isDigit) (l := ds ++ cs)
  rw [htake] at hall
  exact ⟨htake, List.append_cancel_left hall⟩

/-- A numeral is taken to its end, and not beyond. -/
theorem takeWhile_digits {cs : List Char} (h : EndsNumeral cs) (n : Nat) :
    (digits n ++ cs).takeWhile Char.isDigit = digits n :=
  (span_digits (isDigit_of_mem_digits n) h).1

theorem dropWhile_digits {cs : List Char} (h : EndsNumeral cs) (n : Nat) :
    (digits n ++ cs).dropWhile Char.isDigit = cs :=
  (span_digits (isDigit_of_mem_digits n) h).2

/-- Digits and what ends them are told apart. -/
theorem digits_append_inj {m n : Nat} {s t : List Char} (hs : EndsNumeral s) (ht : EndsNumeral t)
    (h : digits m ++ s = digits n ++ t) : m = n ∧ s = t := by
  have htake := congrArg (List.takeWhile Char.isDigit) h
  rw [takeWhile_digits hs, takeWhile_digits ht] at htake
  rw [htake] at h
  exact ⟨by rw [← value_digits m, htake, value_digits], List.append_cancel_left h⟩

/-! ## Signed numerals -/

/-- A plain numeral has a sign only below zero. -/
theorem toList_plain (n : Int) :
    (plain n).toList = (if n < 0 then ['-'] else []) ++ digits n.natAbs := by
  unfold plain natural
  split
  · rw [String.toList_append, String.toList_ofList, String.toList_ofList]
  · rw [String.toList_ofList, List.nil_append]

/-- A numeral without a sign begins with a digit. -/
theorem head?_digits_append_ne {c : Char} (hc : c.isDigit = false) (n : Nat) (s : List Char) :
    (digits n ++ s).head? ≠ some c := by
  cases hd : digits n with
  | nil => exact absurd hd (digits_ne_nil n)
  | cons d ds =>
    rintro ⟨⟩
    have hdigit := isDigit_of_mem_digits n c (hd ▸ List.mem_cons_self)
    rw [hc] at hdigit
    cases hdigit

/-- Digits have no sign in front. -/
theorem splitSign_digits (n : Nat) (cs : List Char) :
    splitSign (digits n ++ cs) = (false, digits n ++ cs) := by
  unfold splitSign
  split
  · rename_i h
    exact absurd (congrArg List.head? h) (head?_digits_append_ne rfl n cs)
  · rename_i h
    exact absurd (congrArg List.head? h) (head?_digits_append_ne rfl n cs)
  · rfl

/-- **The sign** of a plain numeral is told from its digits. -/
theorem splitSign_plain (n : Int) (cs : List Char) :
    splitSign ((plain n).toList ++ cs) = (decide (n < 0), digits n.natAbs ++ cs) := by
  rw [toList_plain]
  by_cases hn : n < 0
  · rw [if_pos hn, decide_eq_true hn]
    rfl
  · rw [if_neg hn, decide_eq_false hn, List.nil_append, splitSign_digits]

/-- Sign and digits give the integer back. -/
theorem ofDigits_digits_natAbs (n : Int) : ofDigits (decide (n < 0)) (digits n.natAbs) = n := by
  rw [ofDigits, value_digits]
  by_cases hn : n < 0
  · rw [decide_eq_true hn, if_pos rfl]
    omega
  · rw [decide_eq_false hn, if_neg Bool.false_ne_true]
    omega

/-- **A numeral and what ends it are told apart.** -/
theorem plain_append_inj {m n : Int} {s t : List Char} (hs : EndsNumeral s) (ht : EndsNumeral t)
    (h : (plain m).toList ++ s = (plain n).toList ++ t) : m = n ∧ s = t := by
  rw [toList_plain, toList_plain, List.append_assoc, List.append_assoc] at h
  by_cases hm : m < 0 <;> by_cases hn : n < 0
  · rw [if_pos hm, if_pos hn] at h
    obtain ⟨habs, hst⟩ := digits_append_inj hs ht (List.append_cancel_left h)
    exact ⟨by omega, hst⟩
  · rw [if_pos hm, if_neg hn] at h
    exact absurd (congrArg List.head? h.symm) (head?_digits_append_ne rfl _ _)
  · rw [if_neg hm, if_pos hn] at h
    exact absurd (congrArg List.head? h) (head?_digits_append_ne rfl _ _)
  · rw [if_neg hm, if_neg hn] at h
    obtain ⟨habs, hst⟩ := digits_append_inj hs ht h
    exact ⟨by omega, hst⟩

/-! ## All numerals of a number -/

/-- A row of digits. -/
structure AreDigits (ds : List Char) : Prop where
  ne_nil : ds ≠ []
  isDigit : ∀ c ∈ ds, c.isDigit = true

/-- **A numeral of a number**: its sign and then digits, at least one. There may be zeros in front,
and a plus or not. -/
inductive Denotes : List Char → Int → Prop
  | unsigned {ds : List Char} (h : AreDigits ds) : Denotes ds (value ds)
  | plus {ds : List Char} (h : AreDigits ds) : Denotes ('+' :: ds) (value ds)
  | minus {ds : List Char} (h : AreDigits ds) : Denotes ('-' :: ds) (-(value ds : Int))

theorem areDigits_digits (n : Nat) : AreDigits (digits n) :=
  ⟨digits_ne_nil n, isDigit_of_mem_digits n⟩

theorem denotes_digits (n : Nat) : Denotes (digits n) n := by
  have h := Denotes.unsigned (areDigits_digits n)
  rwa [value_digits] at h

/-- A plain numeral denotes its integer. -/
theorem denotes_plain (n : Int) : Denotes (plain n).toList n := by
  have hvalue := ofDigits_digits_natAbs n
  rw [toList_plain]
  by_cases hn : n < 0
  · rw [decide_eq_true hn] at hvalue
    rw [if_pos hn]
    exact (congrArg (Denotes _) hvalue).mp (.minus (areDigits_digits n.natAbs))
  · rw [decide_eq_false hn] at hvalue
    rw [if_neg hn]
    exact (congrArg (Denotes _) hvalue).mp (.unsigned (areDigits_digits n.natAbs))

theorem denotes_signed (n : Int) : Denotes (signed n).toList n := by
  have hvalue := ofDigits_digits_natAbs n
  rw [signed, natural]
  by_cases hn : n < 0
  · rw [decide_eq_true hn] at hvalue
    rw [if_pos hn, String.toList_append, String.toList_ofList, String.toList_ofList]
    exact (congrArg (Denotes _) hvalue).mp (.minus (areDigits_digits n.natAbs))
  · rw [decide_eq_false hn] at hvalue
    rw [if_neg hn, String.toList_append, String.toList_ofList, String.toList_ofList]
    exact (congrArg (Denotes _) hvalue).mp (.plus (areDigits_digits n.natAbs))

/-- A numeral by its sign and its digits, also in front of other text. -/
theorem Denotes.splitSign_append {cs : List Char} {n : Int} (h : Denotes cs n) (rest : List Char) :
    ∃ negative ds, AreDigits ds ∧ splitSign (cs ++ rest) = (negative, ds ++ rest) ∧
      ofDigits negative ds = n := by
  cases h with
  | unsigned h =>
    refine ⟨false, cs, h, ?_, rfl⟩
    obtain ⟨c, ds, rfl⟩ := List.exists_cons_of_ne_nil h.ne_nil
    have hdigit := h.isDigit c List.mem_cons_self
    -- a digit is no sign
    unfold splitSign
    split
    · rename_i heq
      cases heq
      cases hdigit
    · rename_i heq
      cases heq
      cases hdigit
    · rfl
  | plus h => exact ⟨false, _, h, rfl, rfl⟩
  | minus h => exact ⟨true, _, h, rfl, rfl⟩

/-- A numeral begins with a digit or a sign. -/
theorem Denotes.head?_append_ne {cs : List Char} {n : Int} {c : Char} (h : Denotes cs n)
    (hdigit : c.isDigit = false) (hplus : c ≠ '+') (hminus : c ≠ '-') (rest : List Char) :
    (cs ++ rest).head? ≠ some c := by
  cases h with
  | unsigned h =>
    obtain ⟨d, ds, rfl⟩ := List.exists_cons_of_ne_nil h.ne_nil
    have hd := h.isDigit d List.mem_cons_self
    rintro ⟨⟩
    rw [hd] at hdigit
    cases hdigit
  | plus h => exact fun heq => hplus (Option.some.inj heq).symm
  | minus h => exact fun heq => hminus (Option.some.inj heq).symm

/-- A sign and digits behind it make a numeral. -/
theorem exists_denotes (cs : List Char) {ds rest : List Char} (hds : AreDigits ds)
    (h : (splitSign cs).2 = ds ++ rest) :
    ∃ numeral, cs = numeral ++ rest ∧ Denotes numeral (ofDigits (splitSign cs).1 ds) := by
  unfold splitSign at h ⊢
  split at h
  · exact ⟨'-' :: ds, congrArg ('-' :: ·) h, .minus hds⟩
  · exact ⟨'+' :: ds, congrArg ('+' :: ·) h, .plus hds⟩
  · exact ⟨ds, h, .unsigned hds⟩

/-- The text ends with a digit. -/
def EndsInDigit (cs : List Char) : Prop := ∃ front c, cs = front ++ [c] ∧ c.isDigit = true

theorem EndsInDigit.append {ds : List Char} (h : EndsInDigit ds) (cs : List Char) :
    EndsInDigit (cs ++ ds) := by
  obtain ⟨front, c, rfl, hc⟩ := h
  exact ⟨cs ++ front, c, (List.append_assoc cs front [c]).symm, hc⟩

theorem AreDigits.endsInDigit {ds : List Char} (h : AreDigits ds) : EndsInDigit ds :=
  ⟨ds.dropLast, ds.getLast h.ne_nil, (List.dropLast_concat_getLast h.ne_nil).symm,
    h.isDigit _ (List.getLast_mem h.ne_nil)⟩

/-- A numeral ends in a digit, whatever sign it begins with. -/
theorem Denotes.endsInDigit {cs : List Char} {n : Int} (h : Denotes cs n) : EndsInDigit cs := by
  cases h with
  | unsigned h => exact h.endsInDigit
  | plus h => exact h.endsInDigit.append ['+']
  | minus h => exact h.endsInDigit.append ['-']

end Tabletop.Numeral
