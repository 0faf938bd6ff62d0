import Mathlib.Data.List.Chain
import Tabletop.Comment.Basic
import Tabletop.Proofs.Comment.Agreement
import Tabletop.Proofs.Comment.Layout

/-!
# Fixing a comment twice

Does a comment that was fixed stay as it is when it is fixed again?

* Every rule keeps lines as they are or makes them **smaller** (`Shrinks`), so together the rules
  change nothing exactly if each of them changes nothing (`tidyLines_eq_self_iff`);
* rulers of dashes are all shortened at once. But of what the first three rules leave, **three things
  change the next time**: dashes at the end of a line that ended with two rows of them, empty lines
  that became adjacent when dashes were taken away, and a ruler of dots right behind another one
  (`Settles`);
* so for a plain starter, fixing twice is fixing once **exactly if none of these is left**
  (`fix_fix_eq_iff`).
-/

namespace Tabletop.Comment

open Text

/-- **Lines that need no more**: what the last rule leaves of them, no rule changes. -/
structure Settles (starter : List Char) (ls : List (List Char)) : Prop where
  /-- no line ends with dashes -/
  untrailed : ∀ line ∈ ls, untrailed line = line
  /-- no two adjacent lines between others are empty -/
  spaced : ∀ a b c d, [a, b, c, d] <:+: ls → isEmptyLine b = true → isEmptyLine c = false
  /-- no two adjacent lines are rulers of dots -/
  apart : ls.IsChain fun a b => isDotted starter a = true → isDotted starter b = false

/-- The lines of a text that the first three rules leave. -/
def linesLeft (starter text : List Char) : List (List Char) :=
  (substitute dashTrailers (substitute (longRulers starter) (substitute blankRuns text))).splitOn
    '\n'

variable {ls ks : List (List Char)} {line starter : List Char}

/-! ## Every change makes lines smaller -/

/-- The size of some lines: a character counts twice as much as a line. -/
def weight : List (List Char) → ℕ
  | [] => 0
  | line :: ls => 2 * line.length + 1 + weight ls

/-- Nothing changes, or the lines get smaller. -/
def Shrinks (ls ks : List (List Char)) : Prop := ks = ls ∨ weight ks < weight ls

@[simp] theorem weight_nil : weight [] = 0 := rfl

@[simp] theorem weight_cons (line : List Char) (ls : List (List Char)) :
    weight (line :: ls) = 2 * line.length + 1 + weight ls := rfl

theorem weight_le_of_suffix (h : ks <:+ ls) : weight ks ≤ weight ls := by
  obtain ⟨front, rfl⟩ := h
  induction front with
  | nil => exact Nat.le_refl _
  | cons line front ih => exact ih.trans (Nat.le_add_left _ _)

/-- Lines that shrink do not get larger. -/
theorem Shrinks.le (h : Shrinks ls ks) : weight ks ≤ weight ls := by
  rcases h with rfl | h
  · exact Nat.le_refl _
  · exact h.le

/-- Lines that shrink without getting smaller stay as they are. -/
theorem Shrinks.eq (h : Shrinks ls ks) (hle : weight ls ≤ weight ks) : ks = ls :=
  h.resolve_right (Nat.not_lt.mpr hle)

/-- A line in front does not matter to what shrinks behind it. -/
theorem Shrinks.cons (line : List Char) (h : Shrinks ls ks) : Shrinks (line :: ls) (line :: ks) := by
  refine h.imp (fun heq => by rw [heq]) fun hlt => ?_
  rw [weight_cons, weight_cons]
  omega

/-- Two empty lines weigh two at least. -/
theorem weight_dropEmpties_add_le (h : emptiesAhead ls = true) :
    weight (dropEmpties ls) + 2 ≤ weight ls := by
  revert h
  fun_cases emptiesAhead ls with
  | case1 first second third more =>
    intro h
    obtain ⟨hfirst, hsecond⟩ := Bool.and_eq_true_iff.mp h
    have hle := weight_le_of_suffix (dropEmpties_suffix (third :: more))
    rw [dropEmpties, if_pos hfirst, dropEmpties, if_pos hsecond, weight_cons first,
      weight_cons second]
    omega
  | case2 => exact fun h => absurd h Bool.false_ne_true

/-- Merging empty lines shrinks. -/
theorem shrinks_mergeEmpties (ls : List (List Char)) : Shrinks ls (mergeEmpties ls) := by
  fun_induction mergeEmpties ls with
  | case1 => exact .inl rfl
  | case2 line ls hruns ih =>
    right
    have hcut := (upTo_isPrefix isEmptyLine line).length_le
    have hdropped := ih.le
    have hbehind := weight_dropEmpties_add_le hruns
    rw [weight_cons, weight_cons, weight_cons, List.length_nil]
    omega
  | case3 line ls hruns ih => exact ih.cons line

/-- What leaves each line as it is or shortens it shrinks. -/
theorem shrinks_map {f : List Char → List Char}
    (hf : ∀ line, f line = line ∨ (f line).length < line.length) (ls : List (List Char)) :
    Shrinks ls (ls.map f) := by
  induction ls with
  | nil => exact .inl rfl
  | cons line ls ih =>
    rw [List.map_cons]
    rcases hf line with heq | hlt
    · rw [heq]
      exact ih.cons line
    · have hle := ih.le
      refine .inr ?_
      rw [weight_cons, weight_cons]
      omega

theorem shrinks_map_shorten (starter : List Char) (ls : List (List Char)) :
    Shrinks ls (ls.map (shorten starter)) := by
  refine shrinks_map (fun line => ?_) ls
  by_cases h : behindRuler? starter '-' line = none
  · exact .inl (shorten_of_none h)
  · exact .inr (length_shorten_lt h)

theorem shrinks_map_untrailed (ls : List (List Char)) : Shrinks ls (ls.map untrailed) := by
  refine shrinks_map (fun line => ?_) ls
  have hfront := upTo_isPrefix isTrailer line
  rcases hfront.length_le.eq_or_lt with heq | hlt
  · exact .inl (hfront.eq_of_length heq)
  · exact .inr hlt

/-- Shortening rulers of dots shrinks, though the last line may get a line behind it: a ruler loses
more than that. -/
theorem shrinks_shortDots (starter : List Char) (ls : List (List Char)) :
    Shrinks ls (shortDots starter ls) := by
  fun_induction shortDots starter ls with
  | case1 | case3 => exact .inl rfl
  | case2 line hdots =>
    have hlt := length_dots_lt hdots
    refine .inr ?_
    simp only [weight_cons, weight_nil, List.length_nil]
    omega
  | case4 line next ls hdots ih =>
    have hlt := length_dots_lt hdots
    have hle := ih.le
    refine .inr ?_
    simp only [weight_cons]
    omega
  | case5 line next ls hdots ih => exact ih.cons line

/-- **Tidied up, nothing changes** exactly if no rule changes anything. -/
theorem tidyLines_eq_self_iff : tidyLines starter ls = ls ↔
    mergeEmpties ls = ls ∧ ls.map (shorten starter) = ls ∧ ls.map untrailed = ls ∧
      shortDots starter ls = ls := by
  constructor
  · intro h
    have hmerge := shrinks_mergeEmpties ls
    have hshort := shrinks_map_shorten starter (mergeEmpties ls)
    have htrail := shrinks_map_untrailed ((mergeEmpties ls).map (shorten starter))
    have hdots := shrinks_shortDots starter (halfTidied starter ls)
    have hle : weight ls ≤ weight (halfTidied starter ls) := by
      conv => lhs; rw [← h]
      exact hdots.le
    -- the lines never grow, so they cannot have got smaller in between
    rw [halfTidied] at hle
    have hmerged := hmerge.eq (hle.trans (htrail.le.trans hshort.le))
    rw [hmerged] at hle hshort htrail
    have hshortened := hshort.eq (hle.trans htrail.le)
    rw [hshortened] at hle htrail
    have hcut := htrail.eq hle
    refine ⟨hmerged, hshortened, hcut, ?_⟩
    conv => rhs; rw [← h]
    rw [tidyLines, halfTidied, hmerged, hshortened, hcut]
  · rintro ⟨hmerged, hshortened, hcut, hdotted⟩
    rw [tidyLines, halfTidied, hmerged, hshortened, hcut, hdotted]

/-! ## What the last rule leaves -/

theorem map_eq_self_iff {f : List Char → List Char} :
    ls.map f = ls ↔ ∀ line ∈ ls, f line = line := by
  have hid : ls.map f = ls ↔ ls.map f = ls.map id := by rw [List.map_id]
  exact hid.trans List.map_inj_left

/-- Merging changes lines exactly if there is a run of empty ones behind a line. -/
theorem mergeEmpties_eq_self_iff : mergeEmpties ls = ls ↔ hasRun ls = false :=
  ⟨fun h => h ▸ hasRun_mergeEmpties ls, mergeEmpties_eq_self⟩

theorem isEmptyLine_of_mem_dot (h : '.' ∈ line) : isEmptyLine line = false := by
  rw [isEmptyLine, List.all_eq_false]
  exact ⟨'.', h, by decide⟩

theorem isEmptyLine_dots (starter line : List Char) : isEmptyLine (dots starter line) = false :=
  isEmptyLine_of_mem_dot (by simp [dots])

theorem mem_dot_of_isDotted (h : isDotted starter line = true) : '.' ∈ line := by
  obtain ⟨n, behind, hn, heq, -⟩ := eq_of_isDotted h
  have hne : n ≠ 0 := by omega
  rw [heq]
  simp [hne]

/-- A ruler of dots is no empty line. -/
theorem isEmptyLine_of_isDotted (h : isDotted starter line = true) : isEmptyLine line = false :=
  isEmptyLine_of_mem_dot (mem_dot_of_isDotted h)

/-- Short rulers stand where long ones stood, and neither are empty lines. -/
theorem emptiesAhead_cons_shortDots (starter first : List Char) (ls : List (List Char)) :
    emptiesAhead (first :: shortDots starter ls) = emptiesAhead (first :: ls) := by
  fun_cases shortDots starter ls with
  | case1 | case3 => rfl
  | case2 line hdots =>
    rw [emptiesAhead_cons_of_visible first (isEmptyLine_dots starter line)]
    rfl
  | case4 line next ls hdots =>
    rw [emptiesAhead_cons_of_visible first (isEmptyLine_dots starter line),
      emptiesAhead_cons_of_visible first (isEmptyLine_of_isDotted hdots)]
  | case5 line next ls hdots =>
    have hne : shortDots starter (next :: ls) ≠ [] := by rw [ne_eq, shortDots_eq_nil_iff]; simp
    obtain ⟨head, tail, heq⟩ := List.exists_cons_of_ne_nil hne
    rw [heq]
    rfl

/-- Shortening rulers of dots leaves the empty lines ahead. -/
theorem emptiesAhead_shortDots (starter : List Char) (ls : List (List Char)) :
    emptiesAhead (shortDots starter ls) = emptiesAhead ls := by
  fun_cases shortDots starter ls with
  | case1 | case2 | case3 => rfl
  | case4 line next ls hdots =>
    rw [emptiesAhead_of_visible (isEmptyLine_dots starter line),
      emptiesAhead_of_visible (isEmptyLine_of_isDotted hdots)]
  | case5 line next ls hdots => exact emptiesAhead_cons_shortDots starter line (next :: ls)

/-- Shortening rulers of dots neither makes nor breaks a run of empty lines. -/
theorem hasRun_shortDots (starter : List Char) (ls : List (List Char)) :
    hasRun (shortDots starter ls) = hasRun ls := by
  fun_induction shortDots starter ls with
  | case1 | case3 => rfl
  | case2 => rfl
  | case4 line next ls hdots ih =>
    rw [hasRun, hasRun, hasRun, hasRun, ih, emptiesAhead_shortDots, emptiesAhead_cons_shortDots]
  | case5 line next ls hdots ih => rw [hasRun, hasRun, ih, emptiesAhead_shortDots]

/-- The last rule adds no dashes to the ends of lines, and takes none away. -/
theorem forall_untrailed_shortDots_iff :
    (∀ line ∈ shortDots starter ls, untrailed line = line) ↔
      ∀ line ∈ ls, untrailed line = line := by
  constructor
  · intro h line hline
    cases hdots : isDotted starter line with
    | true => exact untrailed_of_isDotted hdots
    | false => exact h line (mem_shortDots_of_mem hdots hline)
  · intro h line hline
    obtain rfl | hmem | ⟨before, -, -, rfl⟩ := mem_shortDots hline
    · rfl
    · exact h line hmem
    · exact untrailed_dots starter before

section Solid

variable (hsolid : ∀ c ∈ starter, isBlank c = false)
include hsolid

/-- Shortening changes lines exactly if one of them is a ruler of dots. -/
theorem shortDots_eq_self_iff :
    shortDots starter ls = ls ↔ ∀ line ∈ ls, isDotted starter line = false := by
  have hne : ∀ {line}, isDotted starter line = true → dots starter line ≠ line := by
    intro line hline heq
    have hdots := isDotted_dots hsolid line
    rw [heq, hline] at hdots
    cases hdots
  fun_induction shortDots starter ls with
  | case1 => simp
  | case2 line hdots => simp [hdots]
  | case3 line hdots => simpa using hdots
  | case4 line next ls hdots ih => simp [hdots, hne hdots]
  | case5 line next ls hdots ih =>
    rw [List.cons.injEq, List.forall_mem_cons, and_iff_right (Bool.eq_false_iff.mpr hdots)]
    exact (and_iff_right rfl).trans ih

/-- **No ruler of dots is left** exactly if no two were adjacent. -/
theorem forall_isDotted_shortDots_iff :
    (∀ line ∈ shortDots starter ls, isDotted starter line = false) ↔
      ls.IsChain fun a b => isDotted starter a = true → isDotted starter b = false := by
  fun_induction shortDots starter ls with
  | case1 => simp
  | case2 line hdots => simp [isDotted_dots hsolid, isDotted_nil]
  | case3 line hdots => simpa using hdots
  | case4 line next ls hdots ih =>
    rw [List.forall_mem_cons, and_iff_right (isDotted_dots hsolid line), List.forall_mem_cons,
      List.isChain_cons_cons, List.isChain_cons, imp_iff_right hdots]
    refine and_congr_right fun hnext => ih.trans (and_iff_right fun line _ hdotted => ?_).symm
    rw [hnext] at hdotted
    cases hdotted
  | case5 line next ls hdots ih =>
    rw [List.forall_mem_cons, and_iff_right (Bool.eq_false_iff.mpr hdots), List.isChain_cons_cons]
    exact ih.trans (and_iff_right fun hdotted => absurd hdotted hdots).symm

/-- Rulers of dashes are all shortened. -/
theorem behindRuler?_of_mem_halfTidied (h : line ∈ halfTidied starter ls) :
    behindRuler? starter '-' line = none := by
  obtain ⟨short, hshort, rfl⟩ := List.mem_map.mp h
  obtain ⟨before, -, rfl⟩ := List.mem_map.mp hshort
  exact behindRuler?_of_prefix hsolid rfl (upTo_isPrefix isTrailer _)
    (behindRuler?_shorten hsolid before)

/-- No tidied line has a long ruler of dashes. -/
theorem behindRuler?_of_mem_tidyLines (h : line ∈ tidyLines starter ls) :
    behindRuler? starter '-' line = none := by
  obtain rfl | hmem | ⟨before, -, -, rfl⟩ := mem_shortDots h
  · exact behindRuler?_nil starter '-'
  · exact behindRuler?_of_mem_halfTidied hsolid hmem
  · exact behindRuler?_dots hsolid '-' (.inl rfl) before

/-- **Tidied up twice**, line by line. -/
theorem tidyLines_tidyLines_iff :
    tidyLines starter (tidyLines starter ls) = tidyLines starter ls ↔
      Settles starter (halfTidied starter ls) := by
  have hmerge : mergeEmpties (tidyLines starter ls) = tidyLines starter ls ↔
      hasRun (halfTidied starter ls) = false := by
    rw [mergeEmpties_eq_self_iff, tidyLines, hasRun_shortDots]
  have hshort : (tidyLines starter ls).map (shorten starter) = tidyLines starter ls :=
    map_eq_self_iff.mpr fun line hline =>
      shorten_of_none (behindRuler?_of_mem_tidyLines hsolid hline)
  have htrail : (tidyLines starter ls).map untrailed = tidyLines starter ls ↔
      ∀ line ∈ halfTidied starter ls, untrailed line = line := by
    rw [map_eq_self_iff, tidyLines, forall_untrailed_shortDots_iff]
  have hdots : shortDots starter (tidyLines starter ls) = tidyLines starter ls ↔
      (halfTidied starter ls).IsChain fun a b =>
        isDotted starter a = true → isDotted starter b = false := by
    rw [shortDots_eq_self_iff hsolid, tidyLines, forall_isDotted_shortDots_iff hsolid]
  rw [tidyLines_eq_self_iff, hmerge, and_iff_right hshort, htrail, hdots, hasRun_eq_false_iff]
  exact ⟨fun h => ⟨h.2.1, h.1, h.2.2⟩, fun h => ⟨h.spaced, h.untrailed, h.apart⟩⟩

end Solid

/-! ## Fixing twice -/

/-- A text tidied up twice. -/
theorem tidy_tidy_iff (hsolid : ∀ c ∈ starter, isBlank c = false) (hplain : IsPlain starter)
    (text : List Char) :
    tidy starter (tidy starter text) = tidy starter text ↔
      Settles starter (linesLeft starter text) := by
  obtain ⟨ls, hls, hne, rfl⟩ := exists_ofLines text
  have hleft : linesLeft starter (ofLines ls) = halfTidied starter ls := by
    rw [linesLeft, ofLines_halfTidied hsolid hplain hls,
      splitOn_ofLines (areLines_halfTidied hsolid hls) (halfTidied_ne_nil hne)]
  have htidy := areLines_tidyLines hsolid hls
  rw [tidy_ofLines hsolid hplain hls, tidy_ofLines hsolid hplain htidy, hleft,
    ← tidyLines_tidyLines_iff hsolid]
  refine ⟨fun h => ?_, fun h => by rw [h]⟩
  exact ofLines_inj (areLines_tidyLines hsolid htidy) htidy
    (tidyLines_ne_nil (tidyLines_ne_nil hne)) (tidyLines_ne_nil hne) h

/-- Blank lines without a run of empty ones need no more. -/
theorem settles_of_isBlankText (hblank : ∀ line ∈ ls, isBlankText line = true)
    (hruns : hasRun ls = false) : Settles starter ls := by
  refine ⟨fun line hline => ?_, hasRun_eq_false_iff.mp hruns, ?_⟩
  · rw [untrailed, upTo_eq_self_iff]
    intro c t ht
    rw [Bool.eq_false_iff]
    intro htrailer
    exact notMem_of_isBlankText rfl (hblank line hline)
      (ht.subset (mem_dash_of_isTrailer htrailer))
  · refine (List.pairwise_of_forall_mem_list fun a ha b _ hdots => ?_).isChain
    exact absurd (mem_dot_of_isDotted hdots) (notMem_of_isBlankText rfl (hblank a ha))

/-- In a blank text, nothing is left to change. -/
theorem tidy_tidy_of_isBlankText (starter : List Char) {text : List Char}
    (h : isBlankText text = true) :
    tidy starter (tidy starter text) = tidy starter text ∧
      Settles starter (linesLeft starter text) := by
  have hblank := isBlankText_substitute_blankRuns h
  obtain ⟨ls, hls, hne, rfl⟩ := exists_ofLines text
  have hmerged := areLines_mergeEmpties hls
  rw [tidy_of_isBlankText starter h, tidy_of_isBlankText starter hblank, linesLeft,
    substitute_longRulers_of_isBlankText starter hblank,
    substitute_dashTrailers_of_isBlankText hblank]
  rw [substitute_blankRuns hls] at hblank ⊢
  rw [isBlankText_ofLines, List.all_eq_true] at hblank
  rw [substitute_blankRuns hmerged, mergeEmpties_eq_self (hasRun_mergeEmpties ls),
    splitOn_ofLines hmerged (mergeEmpties_ne_nil hne)]
  exact ⟨rfl, settles_of_isBlankText hblank (hasRun_mergeEmpties ls)⟩

/-- **Fixing a comment twice** changes no more than fixing it once, exactly if the lines that the
first three rules leave need no more. -/
theorem fix_fix_eq_iff {c d : Comment} {text : String} (haccepted : c.withText text = .ok d)
    (hplain : IsPlain c.starter.toList) :
    d.fix.fix = d.fix ↔ Settles c.starter.toList (linesLeft c.starter.toList text.toList) := by
  rw [withText] at haccepted
  split_ifs at haccepted with hcheck
  cases haccepted
  have hfixed : ({ c with text := some text } : Comment).fix.fix =
      ({ c with text := some text } : Comment).fix ↔
      tidy c.starter.toList (tidy c.starter.toList text.toList) =
        tidy c.starter.toList text.toList := by
    rw [fix_text rfl, fix_text rfl]
    simp [String.ofList_inj]
  rw [hfixed]
  by_cases hsolid : ∀ x ∈ c.starter.toList, isBlank x = false
  · exact tidy_tidy_iff hsolid hplain text.toList
  · -- no line begins with such a starter, so the text is blank
    have hblank : ∃ x ∈ c.starter.toList, isBlank x = true := by simpa using hsolid
    obtain ⟨htidy, hsettles⟩ :=
      tidy_tidy_of_isBlankText c.starter.toList (isBlankText_of_checkLine hblank hcheck)
    exact iff_of_true htidy hsettles

/-- A long ruler, dashes, blank lines and a ruler of dots, all tidied up at once. -/
theorem fix_fix_eq_iff_guru :
    let text := "     #----------- guru -------\n\n\n\n#......."
    let d : Comment := { template none none with text := some text }
    (template none none).withText text = .ok d ∧ d.fix.fix = d.fix := by
  intro text d
  have haccepted : (template none none).withText text = .ok d := if_pos (by decide +kernel)
  have hleft : linesLeft (template none none).starter.toList text.toList =
      ["     #----- guru".toList, [], "#.......".toList] := by decide +kernel
  refine ⟨haccepted, (fix_fix_eq_iff haccepted (isPlain_of_notMem (by decide))).mpr ?_⟩
  rw [hleft]
  exact ⟨by decide, hasRun_eq_false_iff.mp (by decide), by decide⟩

/-- Of two rows of dashes at the end of a line one is taken away at a time, and of two adjacent
rulers of dots one is shortened. -/
theorem fix_changes_again :
    (∃ d, (template none none).withText "# --- ---\n" = .ok d ∧ d.fix.text = some "# ---\n" ∧
      d.fix.fix.text = some "#\n" ∧ d.fix.fix ≠ d.fix) ∧
    ∃ d, (template none none).withText "#......\n#......\n" = .ok d ∧
      d.fix.text = some "#.....\n#......\n" ∧ d.fix.fix.text = some "#.....\n#.....\n" ∧
      d.fix.fix ≠ d.fix := by
  refine ⟨⟨_, if_pos (by decide +kernel), ?_⟩, ⟨_, if_pos (by decide +kernel), ?_⟩⟩
  all_goals decide +kernel

end Tabletop.Comment
