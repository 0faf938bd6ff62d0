import Tabletop.Proofs.Text.Lines

/-!
# Marks

A mark parts a text: some of it stands in front of the mark, and some behind. Each function that looks
for a mark is told by the parts it leaves.

* The **first mark** of a text has none in front of it (`splitOnce_eq_some_iff`); a **lead** and a
  **tail** are taken off where they stand (`after?_eq_some_iff`, `before?_eq_some_iff`).
* Trimming takes no mark away that is visible (`mem_trim_iff`), and a text that was trimmed has
  nothing left to trim (`trim_trim`), nor do blanks behind it matter (`trim_append`).
-/

namespace Tabletop.Text

variable {mark c : Char} {cs front rest blanks : List Char}

/-! ## Parts of a text -/

/-- Text is split at the first mark, which no part keeps. -/
theorem splitOnce_append (h : mark ∉ front) (rest : List Char) :
    splitOnce mark (front ++ mark :: rest) = some (front, rest) := by
  have hfront : ∀ d ∈ front, decide (d ≠ mark) = true := by
    intro d hd
    exact decide_eq_true fun heq => h (heq ▸ hd)
  simp only [splitOnce, List.dropWhile_append_of_pos hfront, List.takeWhile_append_of_pos hfront]
  simp

/-- **The first mark** parts a text into what has no mark and what follows. -/
theorem splitOnce_eq_some_iff :
    splitOnce mark cs = some (front, rest) ↔ cs = front ++ mark :: rest ∧ mark ∉ front := by
  constructor
  · intro h
    have hparts := List.takeWhile_append_dropWhile (p := fun d => decide (d ≠ mark)) (l := cs)
    have hhead := List.head?_dropWhile_not (fun d => decide (d ≠ mark)) cs
    simp only [splitOnce] at h
    cases hdrop : cs.dropWhile fun d => decide (d ≠ mark) with
    | nil =>
      rw [hdrop] at h
      cases h
    | cons d behind =>
      rw [hdrop] at h hparts hhead
      cases h
      obtain rfl : d = mark := by simpa using hhead
      refine ⟨hparts.symm, fun hmem => ?_⟩
      simpa using List.mem_takeWhile_imp hmem
  · rintro ⟨rfl, h⟩
    exact splitOnce_append h rest

/-- Text has something behind a lead exactly if it begins with the lead. -/
theorem after?_eq_some_iff {lead : String} :
    after? lead cs = some rest ↔ cs = lead.toList ++ rest := by
  simp only [after?]
  constructor
  · intro h
    split at h
    · rename_i hlead
      obtain ⟨behind, rfl⟩ := List.isPrefixOf_iff_prefix.mp hlead
      rw [List.drop_left] at h
      rw [Option.some.inj h]
    · cases h
  · rintro rfl
    rw [if_pos (List.isPrefixOf_iff_prefix.mpr (List.prefix_append _ _)), List.drop_left]

/-- Text has something before a tail exactly if it ends in the tail. -/
theorem before?_eq_some_iff {tail : String} :
    before? tail cs = some front ↔ cs = front ++ tail.toList := by
  simp only [before?]
  constructor
  · intro h
    split at h
    · rename_i htail
      obtain ⟨start, rfl⟩ := List.isSuffixOf_iff_suffix.mp htail
      rw [List.length_append, Nat.add_sub_cancel, List.take_left] at h
      rw [Option.some.inj h]
    · cases h
  · rintro rfl
    rw [if_pos (List.isSuffixOf_iff_suffix.mpr (List.suffix_append _ _)), List.length_append,
      Nat.add_sub_cancel, List.take_left]

/-! ## Trimming -/

theorem mem_trimStart_iff (hc : isBlank c = false) : c ∈ trimStart cs ↔ c ∈ cs := by
  have hvisible : ∀ ds : List Char, c ∈ ds ↔ c ∈ ds.filter fun d => !isBlank d := by
    intro ds
    simp [hc]
  rw [hvisible, trimStart, filter_dropWhile, ← hvisible]

/-- **Trimming takes nothing visible away.** -/
theorem mem_trim_iff (hc : isBlank c = false) : c ∈ trim cs ↔ c ∈ cs := by
  have hvisible : ∀ ds : List Char, c ∈ ds ↔ c ∈ ds.filter fun d => !isBlank d := by
    intro ds
    simp [hc]
  rw [hvisible, filter_trim, ← hvisible]

/-- Nothing is trimmed off a text whose ends are visible. -/
theorem trim_of_ends (hfirst : ∀ c ∈ cs.head?, isBlank c = false)
    (hlast : ∀ c ∈ cs.getLast?, isBlank c = false) : trim cs = cs := by
  have hstart : ∀ {ds : List Char}, (∀ c ∈ ds.head?, isBlank c = false) →
      ds.dropWhile isBlank = ds := by
    intro ds hds
    cases ds with
    | nil => rfl
    | cons d ds => exact trimStart_cons (hds d rfl) ds
  rw [← List.head?_reverse] at hlast
  rw [trim, trimStart, hstart hfirst, trimEnd, hstart hlast, List.reverse_reverse]

theorem trimEnd_append (h : isBlankText blanks = true) (cs : List Char) :
    trimEnd (cs ++ blanks) = trimEnd cs := by
  have hblanks : isBlankText blanks.reverse = true := by rwa [isBlankText, List.all_reverse]
  have hstart := trimStart_append hblanks cs.reverse
  simp only [trimStart] at hstart
  rw [trimEnd, List.reverse_append, hstart, trimEnd]

/-- What is trimmed from the end is blank. -/
theorem exists_trimEnd_append (cs : List Char) :
    ∃ blanks, isBlankText blanks = true ∧ cs = trimEnd cs ++ blanks := by
  obtain ⟨blanks, hblanks, heq⟩ := exists_blanks cs.reverse
  refine ⟨blanks.reverse, by rwa [isBlankText, List.all_reverse], ?_⟩
  have hreverse := congrArg List.reverse heq
  rwa [List.reverse_reverse, List.reverse_append] at hreverse

/-- A text that begins with a visible character is trimmed behind that only. -/
theorem trim_cons (hc : isBlank c = false) (cs : List Char) : trim (c :: cs) = c :: trimEnd cs := by
  rw [trim, trimStart_cons hc, trimEnd, List.reverse_cons, List.dropWhile_append]
  split
  · rename_i hempty
    simp [trimEnd, List.isEmpty_iff.mp hempty, hc]
  · simp [trimEnd]

/-- Blanks behind a text are trimmed away. -/
theorem trim_append (h : isBlankText blanks = true) (cs : List Char) :
    trim (cs ++ blanks) = trim cs := by
  cases hcs : isBlankText cs with
  | true =>
    have hall : isBlankText (cs ++ blanks) = true := by rw [isBlankText_append, hcs, h, Bool.and_true]
    rw [trim, trim, isBlankText_iff.mp hall, isBlankText_iff.mp hcs]
  | false =>
    -- the first visible character is in front, so only the end changes
    have hne : trimStart cs ≠ [] := fun hnil => by
      rw [isBlankText_iff.mpr hnil] at hcs
      cases hcs
    have hstart : trimStart (cs ++ blanks) = trimStart cs ++ blanks :=
      List.dropWhile_append.trans (if_neg fun hempty => hne (List.isEmpty_iff.mp hempty))
    rw [trim, hstart, trimEnd_append h, trim]

theorem trim_trimEnd (cs : List Char) : trim (trimEnd cs) = trim cs := by
  obtain ⟨blanks, hblanks, heq⟩ := exists_trimEnd_append cs
  conv => rhs; rw [heq, trim_append hblanks]

theorem trim_trimStart (cs : List Char) : trim (trimStart cs) = trim cs := by
  rw [trim, trimStart_trimStart, trim]

/-- **A trimmed text** has nothing left to trim. -/
theorem trim_trim (cs : List Char) : trim (trim cs) = trim cs :=
  (trim_trimEnd (trimStart cs)).trans (trim_trimStart cs)

end Tabletop.Text
