import Mathlib.Data.List.TakeWhile
import Tabletop.Proofs.Text.Reading

/-!
# Lines and blanks

Texts are gone through line by line. A line is told by where its line feed is, or by its place in
the list of all lines.

* **A text** is its last line, or a line, a line feed and the lines behind it (`splitLine_cases`);
  what is proved along that goes by `lines_induction`;
* **lines** lists them, without an empty one behind the last line feed; lines that are **joined**,
  each with a line feed, are listed as they were (`lines_joined`);
* what holds of all lines holds of the first one and of all behind it (`all_splitOn`);
* trimming takes away blanks only (`filter_trim`), and what it leaves of a line that is not blank
  begins with another character (`exists_trim_eq_cons`);
* blanks stand in front of a trimmed text (`exists_blanks`) and behind it
  (`exists_trimStart_eq_trim_append`), and it ends with another character (`trim_of_trimStart`);
* blanks end a numeral (`endsNumeral_of_isBlankText`), and so does the sign of another one
  (`endsNumeral_append_iff`).
-/

namespace Tabletop

namespace Text

/-! ## Lines -/

variable {p q : List Char → Bool} {cs line : List Char}

theorem ne_feed_of_notMem (h : '\n' ∉ cs) : ∀ c ∈ cs, decide (c ≠ '\n') = true :=
  fun _ hc => decide_eq_true fun heq => h (heq ▸ hc)

theorem splitLine_of_notMem (h : '\n' ∉ cs) : splitLine cs = (cs, []) := by
  have hall := ne_feed_of_notMem h
  rw [splitLine, List.takeWhile_eq_self_iff.mpr hall, List.dropWhile_eq_nil_iff.mpr hall,
    List.tail_nil]

/-- A line ends at its line feed, which belongs to neither side. -/
theorem splitLine_append (h : '\n' ∉ line) (rest : List Char) :
    splitLine (line ++ '\n' :: rest) = (line, rest) := by
  have hall := ne_feed_of_notMem h
  rw [splitLine, List.takeWhile_append_of_pos hall, List.dropWhile_append_of_pos hall]
  simp

/-- **A text** is its last line, or a line, a line feed and the lines behind it. -/
theorem splitLine_cases (cs : List Char) :
    ('\n' ∉ cs ∧ splitLine cs = (cs, [])) ∨
      ∃ line rest, '\n' ∉ line ∧ cs = line ++ '\n' :: rest ∧ splitLine cs = (line, rest) := by
  by_cases h : '\n' ∈ cs
  · obtain ⟨line, rest, rfl, hline⟩ := List.eq_append_cons_of_mem h
    exact .inr ⟨line, rest, hline, rfl, splitLine_append hline rest⟩
  · exact .inl ⟨h, splitLine_of_notMem h⟩

/-- The first line has no line feed. -/
theorem notMem_splitLine (cs : List Char) : '\n' ∉ (splitLine cs).1 := by
  obtain ⟨h, heq⟩ | ⟨line, rest, h, -, heq⟩ := splitLine_cases cs <;> rwa [heq]

/-- Induction on the lines of a text. -/
theorem lines_induction {motive : List Char → Prop} (nil : motive [])
    (cons : ∀ c cs, motive (splitLine (c :: cs)).2 → motive (c :: cs)) : ∀ cs, motive cs
  | [] => nil
  | c :: cs => cons c cs (lines_induction nil cons (splitLine (c :: cs)).2)
termination_by cs => cs.length
decreasing_by exact length_splitLine_lt c cs

/-- The lines of a text. -/
def lines : List Char → List (List Char)
  | [] => []
  | c :: cs => (splitLine (c :: cs)).1 :: lines (splitLine (c :: cs)).2
termination_by cs => cs.length
decreasing_by exact length_splitLine_lt c cs

/-- Some lines, each with a line feed behind it. -/
def joined (ls : List (List Char)) : List Char := ls.flatMap fun line => line ++ ['\n']

@[simp] theorem lines_nil : lines [] = [] := by rw [lines]

/-- Text that is not empty has a first line, and the lines behind it. -/
theorem lines_cons (c : Char) (cs : List Char) :
    lines (c :: cs) = (splitLine (c :: cs)).1 :: lines (splitLine (c :: cs)).2 := by rw [lines]

@[simp] theorem joined_nil : joined [] = [] := rfl

/-- Every line is closed with a line feed of its own. -/
theorem joined_cons (line : List Char) (ls : List (List Char)) :
    joined (line :: ls) = line ++ '\n' :: joined ls := by
  rw [joined, List.flatMap_cons, List.append_assoc]
  rfl

/-- A line feed ends the first line. -/
theorem lines_append (h : '\n' ∉ line) (rest : List Char) :
    lines (line ++ '\n' :: rest) = line :: lines rest := by
  have hsplit := splitLine_append h rest
  cases line with
  | nil => rw [List.nil_append, lines_cons, ← List.nil_append ('\n' :: rest), hsplit]
  | cons c cs => rw [List.cons_append, lines_cons, ← List.cons_append, hsplit]

theorem notMem_of_mem_lines (h : line ∈ lines cs) : '\n' ∉ line := by
  induction cs using lines_induction with
  | nil =>
    rw [lines_nil] at h
    cases h
  | cons c cs ih =>
    rw [lines_cons] at h
    rcases List.mem_cons.mp h with rfl | h
    · exact notMem_splitLine (c :: cs)
    · exact ih h

/-- **Lines that are joined** are the lines of the text that they make. -/
theorem lines_joined {ls : List (List Char)} (h : ∀ line ∈ ls, '\n' ∉ line) :
    lines (joined ls) = ls := by
  induction ls with
  | nil => exact lines_nil
  | cons line ls ih =>
    obtain ⟨hline, hls⟩ := List.forall_mem_cons.mp h
    rw [joined_cons, lines_append hline, ih hls]

/-- What is taken off behind the first line is taken off the text together with that line. -/
theorem exists_append_of_splitLine {c : Char} {taken rest : List Char}
    (h : (splitLine (c :: cs)).2 = taken ++ rest) :
    ∃ more, c :: cs = more ++ rest ∧ lines more = (splitLine (c :: cs)).1 :: lines taken := by
  obtain ⟨-, heq⟩ | ⟨line, behind, hline, heq, hsplit⟩ := splitLine_cases (c :: cs)
  · -- the last line: nothing is behind it
    rw [heq] at h
    obtain ⟨rfl, rfl⟩ := List.append_eq_nil_iff.mp h.symm
    exact ⟨c :: cs, (List.append_nil _).symm, by rw [lines_cons, heq]⟩
  · rw [hsplit] at h ⊢
    obtain rfl : behind = taken ++ rest := h
    refine ⟨line ++ '\n' :: taken, ?_, lines_append hline taken⟩
    rw [heq, List.append_assoc]
    rfl

/-- What holds of all lines holds of the first one and of the rest. -/
theorem all_splitOn_append (h : '\n' ∉ line) (rest : List Char) :
    ((line ++ '\n' :: rest).splitOn '\n').all p = (p line && (rest.splitOn '\n').all p) := by
  rw [List.splitOn_append_cons_self_of_not_mem h, List.all_cons]

theorem all_splitOn_of_notMem (h : '\n' ∉ line) : (line.splitOn '\n').all p = p line := by
  rw [List.splitOn_eq_singleton h, List.all_cons, List.all_nil, Bool.and_true]

theorem notMem_of_mem_splitOn (h : line ∈ cs.splitOn '\n') : '\n' ∉ line := by
  induction cs using lines_induction with
  | nil =>
    rw [List.splitOn_nil, List.mem_singleton] at h
    exact h ▸ List.not_mem_nil
  | cons c cs ih =>
    obtain ⟨hfeed, -⟩ | ⟨first, rest, hfirst, heq, hsplit⟩ := splitLine_cases (c :: cs)
    · rw [List.splitOn_eq_singleton hfeed, List.mem_singleton] at h
      exact h ▸ hfeed
    · rw [heq, List.splitOn_append_cons_self_of_not_mem hfirst] at h
      rw [hsplit] at ih
      rcases List.mem_cons.mp h with rfl | h
      · exact hfirst
      · exact ih h

/-- **What holds of all lines** holds of the first one and of all behind it, if it holds of the
empty line: that is what stands behind the last line feed. -/
theorem all_splitOn (hp : p [] = true) (cs : List Char) :
    (cs.splitOn '\n').all p =
      (p (splitLine cs).1 && ((splitLine cs).2.splitOn '\n').all p) := by
  obtain ⟨h, heq⟩ | ⟨line, rest, hline, rfl, heq⟩ := splitLine_cases cs
  · rw [heq, all_splitOn_of_notMem h, List.splitOn_nil, List.all_cons, hp, List.all_nil,
      Bool.and_true, Bool.and_true]
  · rw [heq, all_splitOn_append hline]

/-- Of lines it is enough to know something that holds of texts without line feeds. -/
theorem all_splitOn_mono (h : ∀ line, '\n' ∉ line → p line = true → q line = true)
    (hall : (cs.splitOn '\n').all p = true) : (cs.splitOn '\n').all q = true := by
  rw [List.all_eq_true] at hall ⊢
  exact fun line hline => h line (notMem_of_mem_splitOn hline) (hall line hline)

/-! ## Blanks -/

theorem isBlankText_append (cs ds : List Char) :
    isBlankText (cs ++ ds) = (isBlankText cs && isBlankText ds) := List.all_append

theorem isBlankText_cons (c : Char) (cs : List Char) :
    isBlankText (c :: cs) = (isBlank c && isBlankText cs) := List.all_cons

/-- A text is blank if its first line and what is behind that are. -/
theorem isBlankText_eq_splitLine (cs : List Char) :
    isBlankText cs = (isBlankText (splitLine cs).1 && isBlankText (splitLine cs).2) := by
  obtain ⟨-, heq⟩ | ⟨line, rest, -, rfl, heq⟩ := splitLine_cases cs
  · rw [heq]
    exact (Bool.and_true _).symm
  · rw [heq, isBlankText_append, isBlankText_cons]
    rfl

/-- Leading blanks do not count where blanks are taken out anyway. -/
theorem filter_dropWhile (cs : List Char) :
    (cs.dropWhile isBlank).filter (fun c => !isBlank c) = cs.filter fun c => !isBlank c := by
  induction cs with
  | nil => rfl
  | cons c cs ih =>
    cases hc : isBlank c with
    | true => simpa [hc] using ih
    | false => simp [hc]

/-- No character but blanks is trimmed away. -/
theorem filter_trim (cs : List Char) :
    (trim cs).filter (fun c => !isBlank c) = cs.filter fun c => !isBlank c := by
  rw [trim, trimEnd, List.filter_reverse, filter_dropWhile, List.filter_reverse,
    List.reverse_reverse, trimStart, filter_dropWhile]

theorem isEmpty_filter (cs : List Char) :
    (cs.filter fun c => !isBlank c).isEmpty = isBlankText cs := by
  rw [Bool.eq_iff_iff, List.isEmpty_iff, List.filter_eq_nil_iff, isBlankText, List.all_eq_true]
  simp

/-- Trimming the end takes nothing from the front. -/
theorem trim_isPrefix (cs : List Char) : trim cs <+: trimStart cs := by
  rw [← List.reverse_suffix, trim, trimEnd, List.reverse_reverse]
  exact List.dropWhile_suffix _

theorem trim_subset (cs : List Char) : trim cs ⊆ cs :=
  List.Subset.trans (trim_isPrefix cs).subset (trimStart_suffix cs).subset

/-- **What is left of a line** that is not blank begins with a character that is no blank. -/
theorem exists_trim_eq_cons (h : isBlankText cs = false) :
    ∃ c rest, trim cs = c :: rest ∧ isBlank c = false := by
  have hprefix := trim_isPrefix cs
  cases htrim : trim cs with
  | nil =>
    have hfilter := filter_trim cs
    rw [htrim, List.filter_nil] at hfilter
    rw [← isEmpty_filter, ← hfilter] at h
    cases h
  | cons c rest =>
    refine ⟨c, rest, rfl, ?_⟩
    obtain ⟨behind, heq⟩ := htrim ▸ hprefix
    have hhead := List.head?_dropWhile_not isBlank cs
    rw [show cs.dropWhile isBlank = c :: (rest ++ behind) from heq.symm] at hhead
    exact hhead

/-- What trimming takes from the front is blank. -/
theorem exists_blanks (cs : List Char) :
    ∃ blanks, isBlankText blanks = true ∧ cs = blanks ++ trimStart cs :=
  ⟨cs.takeWhile isBlank, List.all_takeWhile, List.takeWhile_append_dropWhile.symm⟩

/-- Blanks ahead make no difference to what is behind them. -/
theorem trimStart_append {blanks : List Char} (h : isBlankText blanks = true) (cs : List Char) :
    trimStart (blanks ++ cs) = trimStart cs :=
  List.dropWhile_append_of_pos (List.all_eq_true.mp h)

/-- What trimming takes from the end is blank. -/
theorem exists_trimStart_eq_trim_append (cs : List Char) :
    ∃ blanks, isBlankText blanks = true ∧ trimStart cs = trim cs ++ blanks := by
  obtain ⟨blanks, hblanks, heq⟩ := exists_blanks (trimStart cs).reverse
  refine ⟨blanks.reverse, by rwa [isBlankText, List.all_reverse], ?_⟩
  rw [trim, trimEnd, ← List.reverse_append]
  exact List.reverse_eq_iff.mp heq

/-- A text is trimmed at its end up to the last character that is no blank. -/
theorem trim_of_trimStart {front after : List Char} {c : Char}
    (h : trimStart cs = front ++ [c] ++ after) (hc : isBlank c = false)
    (hafter : isBlankText after = true) : trim cs = front ++ [c] := by
  have hblank : isBlankText after.reverse = true := by rwa [isBlankText, List.all_reverse]
  have hreverse : trimStart (after.reverse ++ c :: front.reverse) = c :: front.reverse := by
    rw [trimStart_append hblank, trimStart_cons hc]
  rw [trim, h, trimEnd, List.reverse_append, List.reverse_concat]
  exact (congrArg List.reverse hreverse).trans (by rw [List.reverse_cons, List.reverse_reverse])

/-- A text that ends with a digit is trimmed up to that. -/
theorem trim_of_endsInDigit {core after : List Char} (hcore : Numeral.EndsInDigit core)
    (h : trimStart cs = core ++ after) (hafter : isBlankText after = true) : trim cs = core := by
  obtain ⟨front, c, rfl, hdigit⟩ := hcore
  exact trim_of_trimStart h (isBlank_of_isDigit hdigit) hafter

/-- Nothing is trimmed off a text between characters that are no blanks. -/
theorem trim_eq_self {c d : Char} (hc : isBlank c = false) (hd : isBlank d = false)
    (cs : List Char) : trim (c :: cs ++ [d]) = c :: cs ++ [d] := by
  rw [trim, List.cons_append, trimStart_cons hc, ← List.cons_append, trimEnd, List.reverse_concat,
    List.dropWhile_cons_of_neg (by simp [hd]), ← List.reverse_concat, List.reverse_reverse]

/-! ## Blanks behind numerals -/

open Numeral

variable {blanks numeral rest : List Char}

/-- A blank ends a numeral. -/
theorem endsNumeral_of_isBlankText (h : isBlankText blanks = true) (hrest : EndsNumeral rest) :
    EndsNumeral (blanks ++ rest) := by
  cases blanks with
  | nil => exact hrest
  | cons b bs =>
    refine endsNumeral_cons (Bool.eq_false_iff.mpr fun hdigit => ?_) _
    rw [isBlankText_cons, isBlank_of_isDigit hdigit] at h
    cases h

theorem endsNumeral_blanks (h : isBlankText blanks = true) : EndsNumeral blanks := by
  have hnil : EndsNumeral [] := by rintro c ⟨⟩
  have hends := endsNumeral_of_isBlankText h hnil
  rwa [List.append_nil] at hends

/-- A numeral behind digits is kept apart from them by blanks or by its sign. -/
theorem endsNumeral_append_iff {n : ℤ} (hblanks : isBlankText blanks = true)
    (hn : Denotes numeral n) :
    EndsNumeral (blanks ++ (numeral ++ rest)) ↔
      blanks ≠ [] ∨ numeral.head? = some '+' ∨ numeral.head? = some '-' := by
  cases blanks with
  | cons b bs =>
    have hends : EndsNumeral (b :: bs ++ (numeral ++ rest)) := fun c hc =>
      endsNumeral_blanks hblanks c hc
    exact iff_of_true hends (.inl (List.cons_ne_nil b bs))
  | nil =>
    cases hn with
    | plus h => exact iff_of_true (endsNumeral_cons rfl _) (.inr (.inl rfl))
    | minus h => exact iff_of_true (endsNumeral_cons rfl _) (.inr (.inr rfl))
    | unsigned h =>
      obtain ⟨c, ds, rfl⟩ := List.exists_cons_of_ne_nil h.ne_nil
      have hdigit := h.isDigit c List.mem_cons_self
      refine iff_of_false (fun hends => ?_) ?_
      · rw [hends c rfl] at hdigit
        cases hdigit
      · rintro (hne | ⟨⟨⟩⟩ | ⟨⟨⟩⟩)
        · exact hne rfl
        · cases hdigit
        · cases hdigit

end Text

end Tabletop
