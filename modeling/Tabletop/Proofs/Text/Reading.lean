import Mathlib.Data.List.TakeWhile
import Tabletop.Proofs.Text.Numeral
import Tabletop.Reader

/-!
# What readers find

A reader skips blanks and then looks at the text. So each is told by what stands behind the blanks:

* an integer is found exactly where one of its numerals stands and what follows does not go on with
  digits (`int_eq_some_iff`), and nothing where no number begins (`int_eq_none`);
* a character is found where it stands (`char_eq_some`), and nowhere else (`char_eq_none`).
-/

namespace Tabletop

namespace Text

theorem isBlank_of_isDigit {c : Char} (h : c.isDigit = true) : isBlank c = false := by
  have hrange : 48 ≤ c.toNat ∧ c.toNat ≤ 57 := by
    simp only [Char.isDigit, Bool.and_eq_true, decide_eq_true_eq] at h
    exact h
  simp [isBlank, Ranges.has, blankRanges]
  omega

/-- Nothing is trimmed before a visible character. -/
theorem trimStart_cons {c : Char} (h : isBlank c = false) (cs : List Char) :
    trimStart (c :: cs) = c :: cs :=
  List.dropWhile_cons_of_neg (by rw [h]; exact Bool.false_ne_true)

theorem trimStart_space (cs : List Char) : trimStart (' ' :: cs) = trimStart cs := rfl

theorem trimStart_trimStart (cs : List Char) : trimStart (trimStart cs) = trimStart cs := by
  have hhead := List.head?_dropWhile_not isBlank cs
  cases h : trimStart cs with
  | nil => rfl
  | cons c ds =>
    rw [show cs.dropWhile isBlank = c :: ds from h] at hhead
    exact trimStart_cons hhead ds

/-- A numeral begins with no blank. -/
theorem trimStart_numeral {numeral : List Char} {n : Int} (h : Numeral.Denotes numeral n)
    (cs : List Char) : trimStart (numeral ++ cs) = numeral ++ cs := by
  cases h with
  | unsigned h =>
    obtain ⟨c, ds, rfl⟩ := List.exists_cons_of_ne_nil h.ne_nil
    exact trimStart_cons (isBlank_of_isDigit (h.isDigit c List.mem_cons_self)) _
  | plus h => exact trimStart_cons rfl _
  | minus h => exact trimStart_cons rfl _

theorem trimStart_digits (n : Nat) (cs : List Char) :
    trimStart (Numeral.digits n ++ cs) = Numeral.digits n ++ cs :=
  trimStart_numeral (Numeral.denotes_digits n) cs

/-- Blank text is trimmed to nothing. -/
theorem isBlankText_iff {cs : List Char} : isBlankText cs = true ↔ trimStart cs = [] := by
  rw [isBlankText, trimStart, List.all_eq_true, List.dropWhile_eq_nil_iff]

/-- Digits at the end are no blanks. -/
theorem trimEnd_of_endsInDigit {cs : List Char} (h : Numeral.EndsInDigit cs) : trimEnd cs = cs := by
  obtain ⟨front, c, rfl, hc⟩ := h
  have hreverse : (c :: front.reverse).dropWhile isBlank = c :: front.reverse :=
    trimStart_cons (isBlank_of_isDigit hc) _
  rw [trimEnd, List.reverse_concat, hreverse, List.reverse_cons, List.reverse_reverse]

theorem trimStart_plain (n : Int) (cs : List Char) :
    trimStart ((Numeral.plain n).toList ++ cs) = (Numeral.plain n).toList ++ cs :=
  trimStart_numeral (Numeral.denotes_plain n) cs

theorem trimStart_signed (n : Int) :
    trimStart (Numeral.signed n).toList = (Numeral.signed n).toList := by
  have hstart := trimStart_numeral (Numeral.denotes_signed n) []
  rwa [List.append_nil] at hstart

theorem trim_plain (n : Int) : trim (Numeral.plain n).toList = (Numeral.plain n).toList := by
  have hstart := trimStart_plain n []
  rw [List.append_nil] at hstart
  rw [trim, hstart, trimEnd_of_endsInDigit (Numeral.denotes_plain n).endsInDigit]

end Text

namespace Numeral

/-- **A numeral** is the text of its number. -/
theorem int?_plain {n : Int} (h : Fits n) : int? (plain n).toList = some n := by
  have hsign := splitSign_plain n []
  rw [List.append_nil, List.append_nil] at hsign
  have hdigits : (digits n.natAbs).all Char.isDigit = true :=
    List.all_eq_true.mpr (isDigit_of_mem_digits n.natAbs)
  rw [int?, hsign]
  simp only [ofDigits_digits_natAbs]
  rw [if_pos ⟨digits_ne_nil _, hdigits, h⟩]

end Numeral

namespace Reader

open Text Numeral

variable {cs rest : List Char}

/-- **An integer is read** from any numeral that denotes one which fits, up to the end of the
numeral. -/
theorem int_of_denotes {numeral : List Char} {n : Int} (hcs : trimStart cs = numeral ++ rest)
    (hn : Denotes numeral n) (hfits : Fits n) (hrest : EndsNumeral rest) :
    int cs = (some n, rest) := by
  obtain ⟨negative, ds, hds, hsign, rfl⟩ := hn.splitSign_append rest
  obtain ⟨htake, hdrop⟩ := span_digits hds.isDigit hrest
  unfold int
  rw [hcs, hsign]
  simp only [htake, hdrop]
  rw [if_pos ⟨hds.ne_nil, hfits⟩]

/-- **An integer is found** exactly where one of its numerals stands and ends. -/
theorem int_eq_some_iff {n : Int} :
    int cs = (some n, rest) ↔ ∃ numeral, trimStart cs = numeral ++ rest ∧ Denotes numeral n ∧
      Fits n ∧ EndsNumeral rest := by
  constructor
  · intro h
    unfold int at h
    dsimp only at h
    split at h
    · rename_i hfound
      obtain ⟨hne, hfits⟩ := hfound
      cases h
      have hdigits : AreDigits ((splitSign (trimStart cs)).2.takeWhile Char.isDigit) :=
        ⟨hne, List.all_eq_true.mp List.all_takeWhile⟩
      have hbody := List.takeWhile_append_dropWhile (p := Char.isDigit)
        (l := (splitSign (trimStart cs)).2)
      obtain ⟨numeral, hcs, hn⟩ := exists_denotes (trimStart cs) hdigits hbody.symm
      refine ⟨numeral, hcs, hn, hfits, fun c hc => ?_⟩
      have hhead := List.head?_dropWhile_not Char.isDigit (splitSign (trimStart cs)).2
      rw [Option.mem_def.mp hc] at hhead
      exact hhead
    · cases h
  · rintro ⟨numeral, hcs, hn, hfits, hrest⟩
    exact int_of_denotes hcs hn hfits hrest

theorem int_digits {m : Nat} (hcs : trimStart cs = digits m ++ rest) (hfits : Fits (m : Int))
    (hrest : EndsNumeral rest) : int cs = (some (m : Int), rest) :=
  int_of_denotes hcs (denotes_digits m) hfits hrest

/-- **An integer is read** as it is written. -/
theorem int_plain {n : Int} (hcs : trimStart cs = (plain n).toList ++ rest) (hfits : Fits n)
    (hrest : EndsNumeral rest) : int cs = (some n, rest) :=
  int_of_denotes hcs (denotes_plain n) hfits hrest

theorem int_signed {n : Int} (hcs : trimStart cs = (signed n).toList ++ rest) (hfits : Fits n)
    (hrest : EndsNumeral rest) : int cs = (some n, rest) :=
  int_of_denotes hcs (denotes_signed n) hfits hrest

/-- The text does not begin with a number, blanks apart. -/
def NoNumber (cs : List Char) : Prop :=
  ∀ c ∈ (trimStart cs).head?, c.isDigit = false ∧ c ≠ '-' ∧ c ≠ '+'

/-- Blank text has no number. -/
theorem noNumber_of_isBlankText (h : isBlankText cs = true) : NoNumber cs := by
  rw [NoNumber, isBlankText_iff.mp h]
  rintro c ⟨⟩

/-- Without a number nothing is read, and blanks are not consumed. -/
theorem int_eq_none (h : NoNumber cs) : int cs = (none, cs) := by
  unfold NoNumber at h
  unfold int
  cases htrim : trimStart cs with
  | nil => rfl
  | cons c ds =>
    obtain ⟨hdigit, hminus, hplus⟩ := h c (by rw [htrim]; rfl)
    have hsign : splitSign (c :: ds) = (false, c :: ds) := by
      unfold splitSign
      split
      · rename_i heq
        exact absurd (List.cons.inj heq).1 hminus
      · rename_i heq
        exact absurd (List.cons.inj heq).1 hplus
      · rfl
    rw [hsign]
    simp only [List.takeWhile_cons, hdigit, Bool.false_eq_true, if_false, ne_eq, not_true,
      false_and]

/-- An expected character is read behind blanks. -/
theorem char_eq_some {c : Char} (h : trimStart cs = c :: rest) : char c cs = (some c, rest) := by
  unfold char
  rw [h]
  exact if_pos rfl

/-- **A character is found** exactly where it stands. -/
theorem char_eq_some_iff {c d : Char} :
    char c cs = (some d, rest) ↔ d = c ∧ trimStart cs = c :: rest := by
  constructor
  · intro h
    unfold char at h
    split at h
    · cases h
    · rename_i heq
      split at h
      · rename_i hc
        cases h
        exact ⟨rfl, hc ▸ heq⟩
      · cases h
  · rintro ⟨rfl, h⟩
    exact char_eq_some h

theorem char_eq_none {c : Char} (h : (trimStart cs).head? ≠ some c) : char c cs = (none, cs) := by
  unfold char
  cases htrim : trimStart cs with
  | nil => rfl
  | cons d ds =>
    rw [htrim] at h
    exact if_neg fun hd => h (congrArg some hd)

end Reader

end Tabletop
