import Mathlib.Data.List.Basic
import Tabletop.Comment.Basic
import Tabletop.Proofs.Comment.Agreement
import Tabletop.Proofs.Comment.Layout

/-!
# Fixing keeps comments

The text of a comment was checked when it was set. Does it still pass the check when it was fixed? The
rules write the starter, and they take dashes away.

* A line that passes the check passes it with a short ruler (`checkLine_shorten`, `checkLine_dots`),
  and without the dashes at its end if none of them is the starter's (`checkLine_untrailed`);
* a starter that ends with a dash **loses it** where a line goes on with a blank and more dashes
  (`tidy_dashes`). Only the dash alone may: without it the line is blank;
* a starter that is not plain is filled like the template that it is written into (`tidy_dots`). Then
  a dollar sign **is lost** (`Text.dwindles`), and the line does not begin with the starter;
* so comments are kept **exactly for the other starters**, and for those with a blank
  (`keepsComments_iff`).
-/

namespace Tabletop.Comment

open Text

variable {starter line : List Char} {ls : List (List Char)}

/-! ## Lines that stay lines of a comment -/

/-- The text without its blanks. -/
def compact (cs : List Char) : List Char := cs.filter fun c => !isBlank c

theorem compact_append (cs ds : List Char) : compact (cs ++ ds) = compact cs ++ compact ds :=
  List.filter_append ..

theorem compact_of_isBlankText {cs : List Char} (h : isBlankText cs = true) : compact cs = [] := by
  rw [compact, ← List.isEmpty_iff, isEmpty_filter, h]

theorem compact_of_solid {cs : List Char} (h : ∀ c ∈ cs, isBlank c = false) : compact cs = cs :=
  List.filter_eq_self.mpr fun c hc => by rw [h c hc]; rfl

/-- A line passes if nothing of it is visible, or if what is visible begins with the starter. -/
theorem checkLine_iff :
    checkLine starter line = true ↔ compact line = [] ∨ starter <+: compact line := by
  rw [checkLine, Bool.or_eq_true, List.isEmpty_iff, List.isPrefixOf_iff_prefix]
  rfl

theorem checkLine_nil (starter : List Char) : checkLine starter [] = true := rfl

/-- Blanks at the end of a line do not count. -/
theorem checkLine_append_blank {fill : List Char} (h : isBlankText fill = true) :
    checkLine starter (line ++ fill) = checkLine starter line := by
  rw [Bool.eq_iff_iff, checkLine_iff, checkLine_iff, compact_append, compact_of_isBlankText h,
    List.append_nil]

/-- Fill is blank, so that empty lines are blank lines. -/
theorem isBlank_of_isFill {c : Char} (h : isFill c = true) : isBlank c = true := by
  rcases Bool.or_eq_true_iff.mp h with h | h
  · exact isBlank_of_isGap h
  · exact eq_of_beq h ▸ rfl

theorem isBlankText_of_isEmptyLine (h : isEmptyLine line = true) : isBlankText line = true :=
  List.all_eq_true.mpr fun c hc => isBlank_of_isFill (List.all_eq_true.mp h c hc)

/-- Merging empty lines keeps that all lines pass. -/
theorem checkLine_of_mem_mergeEmpties (h : ∀ line ∈ ls, checkLine starter line = true) :
    ∀ line ∈ mergeEmpties ls, checkLine starter line = true := by
  intro line hline
  obtain rfl | ⟨fill, hfill, hmem⟩ := mem_mergeEmpties hline
  · exact checkLine_nil starter
  · rw [← checkLine_append_blank (isBlankText_of_isEmptyLine hfill)]
    exact h _ hmem

section Solid

variable (hsolid : ∀ c ∈ starter, isBlank c = false)
include hsolid

/-- A line with the starter behind its gaps. -/
theorem checkLine_lead (line text : List Char) :
    checkLine starter (line.takeWhile isGap ++ starter ++ text) = true := by
  have hgap : isBlankText (line.takeWhile isGap) = true :=
    List.all_eq_true.mpr fun c hc => isBlank_of_isGap (all_takeWhile_isGap line c hc)
  rw [checkLine_iff, compact_append, compact_append, compact_of_isBlankText hgap,
    compact_of_solid hsolid]
  exact .inr (List.prefix_append _ _)

/-- A line passes when its ruler of dashes is shortened, for the starter stands before the ruler. -/
theorem checkLine_shorten (h : checkLine starter line = true) :
    checkLine starter (shorten starter line) = true := by
  rw [shorten]
  split
  · rw [List.append_assoc (_ ++ _)]
    exact checkLine_lead hsolid line _
  · exact h

/-- A short ruler of dots passes. -/
theorem checkLine_dots (line : List Char) : checkLine starter (dots starter line) = true :=
  checkLine_lead hsolid line _

end Solid

/-- What is taken away from the end of a line are dashes, and blanks. -/
theorem compact_of_isTrailer {cs : List Char} (h : isTrailer cs = true) :
    ∃ n, compact cs = List.replicate n '-' := by
  refine ⟨(compact cs).length, List.eq_replicate_iff.mpr ⟨rfl, fun c hc => ?_⟩⟩
  obtain ⟨hmem, hvisible⟩ := List.mem_filter.mp hc
  rcases mem_of_isTrailer h hmem with hgap | rfl
  · rw [isBlank_of_isGap hgap] at hvisible
    cases hvisible
  · rfl

/-- The end of the starter is no dash that could be taken away, or it is all of it. -/
def EndsWell (starter : List Char) : Prop := starter = ['-'] ∨ starter.getLast? ≠ some '-'

/-- **A line passes without its trailer** if no dash of the starter can be taken for one. -/
theorem checkLine_untrailed (hends : EndsWell starter) (h : checkLine starter line = true) :
    checkLine starter (untrailed line) = true := by
  obtain ⟨t, heq, ht⟩ := exists_eq_upTo_append isTrailer line
  obtain ⟨n, hn⟩ : ∃ n, compact t = List.replicate n '-' := by
    rcases ht with rfl | ht
    · exact ⟨0, rfl⟩
    · exact compact_of_isTrailer ht
  have hline : compact line = compact (untrailed line) ++ List.replicate n '-' := by
    conv => lhs; rw [heq, compact_append, hn]
    rfl
  rw [checkLine_iff, hline] at h
  rw [checkLine_iff]
  rcases h with hnil | hfront
  · exact .inl (List.append_eq_nil_iff.mp hnil).1
  rcases List.prefix_or_prefix_of_prefix hfront (List.prefix_append _ _) with h | ⟨d, rfl⟩
  · exact .inr h
  -- otherwise the starter ends with a dash that is taken away
  have hd : ∀ c ∈ d, c = '-' := fun c hc =>
    List.eq_of_mem_replicate (((List.prefix_append_right_inj _).mp hfront).subset hc)
  rcases List.eq_nil_or_concat' d with rfl | ⟨front, c, rfl⟩
  · exact .inr (by simp)
  obtain rfl : c = '-' := hd c (by simp)
  rcases hends with hdash | hlast
  · left
    have hlength := congrArg List.length hdash
    simp only [List.length_append, List.length_singleton] at hlength
    exact List.eq_nil_of_length_eq_zero (by omega)
  · rw [← List.append_assoc, List.getLast?_concat] at hlast
    exact absurd rfl hlast

/-- **Line by line**, a comment stays one. -/
theorem checkLine_of_mem_tidyLines (hsolid : ∀ c ∈ starter, isBlank c = false)
    (hends : EndsWell starter) (h : ∀ line ∈ ls, checkLine starter line = true)
    (hline : line ∈ tidyLines starter ls) : checkLine starter line = true := by
  have hleft : ∀ line ∈ halfTidied starter ls, checkLine starter line = true := by
    intro line hline
    obtain ⟨short, hshort, rfl⟩ := List.mem_map.mp hline
    obtain ⟨merged, hmerged, rfl⟩ := List.mem_map.mp hshort
    exact checkLine_untrailed hends
      (checkLine_shorten hsolid (checkLine_of_mem_mergeEmpties h _ hmerged))
  obtain rfl | hmem | ⟨before, -, -, rfl⟩ := mem_shortDots hline
  · exact checkLine_nil starter
  · exact hleft line hmem
  · exact checkLine_dots hsolid before

/-! ## Texts that do not -/

/-- A line that is too short has no ruler. -/
theorem behindRuler?_of_length_lt {mark : Char} (h : line.length < starter.length + 6) :
    behindRuler? starter mark line = none := by
  cases hruler : behindRuler? starter mark line with
  | none => rfl
  | some rest =>
    obtain ⟨n, hn, heq⟩ := eq_of_behindRuler? hruler
    have hlength := congrArg List.length heq
    simp only [List.length_append, List.length_replicate] at hlength
    omega

/-- Dashes behind a blank are cut off, whatever stands in front. -/
theorem untrailed_dashes {front : List Char} (hsolid : ∀ c ∈ front, isBlank c = false) :
    untrailed (front ++ " ---".toList) = front := by
  have htrailer : isTrailer " ---".toList = true := by decide
  rw [untrailed, upTo_append, upTo_of_true htrailer, List.append_nil]
  intro c t ht
  rw [Bool.eq_false_iff]
  intro h
  -- the dashes in front would be followed by a gap and other dashes
  have hdashes : ∀ d ∈ c :: t, d = '-' := by
    intro d hd
    have hgap := isGap_of_visible (hsolid d (ht.subset hd))
    exact (mem_of_isTrailer h (List.mem_append_left _ hd)).resolve_left (by simp [hgap])
  obtain ⟨-, hgaps⟩ := isTrailer_iff.mp h
  obtain rfl := hdashes c List.mem_cons_self
  rw [List.cons_append, List.dropWhile_cons_of_neg (by decide), ← List.cons_append,
    List.dropWhile_append_of_pos fun d hd => decide_eq_true (hdashes d hd)] at hgaps
  have hgap := hgaps '-' (by decide)
  cases hgap

/-- Without empty lines to merge and without rulers of dashes, lines lose the dashes at their ends,
and the rulers of dots are left. -/
theorem tidy_of_no_rulers (hsolid : ∀ c ∈ starter, isBlank c = false) (hlines : AreLines ls)
    (hruns : hasRun ls = false) (hnone : ∀ line ∈ ls, behindRuler? starter '-' line = none) :
    tidy starter (ofLines ls) = substitute (dottedRulers starter) (ofLines (ls.map untrailed)) := by
  rw [tidy, substitute_blankRuns hlines, mergeEmpties_eq_self hruns,
    substitute_longRulers_eq_self hsolid hlines hnone, substitute_dashTrailers hlines]

/-- **A starter that ends with a dash** loses it, if a blank in it and dashes behind it stand in the
text. -/
theorem tidy_dashes {front : List Char} (hsolid : ∀ c ∈ front, isBlank c = false) :
    tidy (front ++ ['-']) (front ++ " ---".toList) = front := by
  have hstarter : ∀ c ∈ front ++ ['-'], isBlank c = false := by
    intro c hc
    rcases List.mem_append.mp hc with hc | hc
    · exact hsolid c hc
    · exact List.mem_singleton.mp hc ▸ rfl
  have hfeed : '\n' ∉ front ++ " ---".toList := by simp [notMem_of_solid hsolid]
  have hlong : behindRuler? (front ++ ['-']) '-' (front ++ " ---".toList) = none :=
    behindRuler?_of_length_lt (by simp)
  have hshort : isDotted (front ++ ['-']) front = false := by
    rw [isDotted, behindRuler?_of_length_lt (by rw [List.length_append]; omega)]
    rfl
  calc tidy (front ++ ['-']) (front ++ " ---".toList)
    _ = tidy (front ++ ['-']) (ofLines [front ++ " ---".toList]) := by rw [ofLines_singleton]
    _ = substitute (dottedRulers (front ++ ['-'])) (ofLines [front]) := by
      rw [tidy_of_no_rulers hstarter (List.forall_mem_singleton.mpr hfeed) rfl
        (List.forall_mem_singleton.mpr hlong), List.map_singleton, untrailed_dashes hsolid]
    _ = ofLines [front] :=
      substitute_dottedRulers_eq_self hstarter
        (List.forall_mem_singleton.mpr (notMem_of_solid hsolid))
        (List.forall_mem_singleton.mpr hshort)
    _ = front := ofLines_singleton front

/-- Six dots right behind the starter are a ruler of dots, and of nothing else. -/
theorem behindRuler?_row (hsolid : ∀ c ∈ starter, isBlank c = false) (mark : Char) :
    behindRuler? starter mark (starter ++ "......".toList) = sixOf? mark "......".toList := by
  have hnil : ∀ c ∈ ([] : List Char), isGap c = true := List.forall_mem_nil _
  exact behindRuler?_lead hsolid hnil (by rintro c ⟨⟩; rfl)

/-- A starter with dots behind it has no trailer. -/
theorem untrailed_row (starter : List Char) :
    untrailed (starter ++ "......".toList) = starter ++ "......".toList := by
  have hend : untrailed (starter ++ ".....".toList ++ ['.']) = starter ++ ".....".toList ++ ['.'] :=
    untrailed_eq_self rfl (by decide) (List.forall_mem_nil _)
  rwa [List.append_assoc] at hend

/-- **A ruler of dots** right behind any starter becomes what the starter stands for as a template,
and five dots. -/
theorem substitute_dottedRulers_row (hsolid : ∀ c ∈ starter, isBlank c = false) :
    substitute (dottedRulers starter) (starter ++ "......\n".toList) =
      expand [starter ++ "......\n".toList, [], [], ['\n']] starter ++ ".....\n".toList := by
  have hfeed : '\n' ∉ starter ++ "......".toList := by simp [notMem_of_solid hsolid]
  have hdotted : isDotted starter (starter ++ "......".toList) = true := by
    rw [isDotted, behindRuler?_row hsolid]
    rfl
  have hfound : found starter finishDots (starter ++ "......\n".toList) = some ([['\n']], []) := by
    have happend := found_finishDots_append hsolid hfeed (atFeed_cons [])
    rw [hdotted, List.append_assoc] at happend
    exact happend
  have hgap : (starter ++ "......\n".toList).takeWhile isGap = [] := by
    cases starter with
    | nil => rfl
    | cons c cs =>
      have hc := isGap_of_visible (hsolid c List.mem_cons_self)
      exact List.takeWhile_cons_of_neg (by simp [hc])
  rw [dottedRulers_eq, substitute_starterRule_of_some hsolid finishes_finishDots hfound, hgap,
    List.append_assoc leadTemplate, expand_leadTemplate, expand_append tail_dots.head tail_dots.close,
    isPlain_of_notMem tail_dots.dollar, substituteFrom, List.append_nil, List.length_nil, Nat.sub_zero,
    List.take_length]
  rfl

/-- What becomes of a starter with a long ruler of dots behind it: the starter is filled in as a
template. -/
theorem tidy_dots (hsolid : ∀ c ∈ starter, isBlank c = false) :
    tidy starter (starter ++ "......\n".toList) =
      expand [starter ++ "......\n".toList, [], [], ['\n']] starter ++ ".....\n".toList := by
  have htext : ofLines [starter ++ "......".toList, []] = starter ++ "......\n".toList := by
    simp [ofLines]
  have hlines : AreLines [starter ++ "......".toList, []] := by
    simp [AreLines, notMem_of_solid hsolid]
  have hdashes : ∀ line ∈ [starter ++ "......".toList, []],
      behindRuler? starter '-' line = none :=
    List.forall_mem_cons.mpr ⟨(behindRuler?_row hsolid '-').trans rfl,
      List.forall_mem_singleton.mpr (behindRuler?_nil starter '-')⟩
  have htrailers : [starter ++ "......".toList, []].map untrailed =
      [starter ++ "......".toList, []] := by
    rw [List.map_cons, untrailed_row]
    rfl
  rw [← htext, tidy_of_no_rulers hsolid hlines rfl hdashes, htrailers, htext,
    substitute_dottedRulers_row hsolid]

/-- What holds of all lines of a text holds of the last line of what stands in front of a line
feed. -/
theorem of_all_splitOn {p : List Char → Bool} {text tail : List Char} (htail : '\n' ∉ tail)
    (h : ((text ++ (tail ++ ['\n'])).splitOn '\n').all p = true) :
    p (lastLine text ++ tail) = true := by
  induction text using lines_induction with
  | nil =>
    rw [List.nil_append, all_splitOn_append htail, Bool.and_eq_true] at h
    exact h.1
  | cons c cs ih =>
    obtain ⟨hfeed, -⟩ | ⟨line, rest, hline, heq, hsplit⟩ := splitLine_cases (c :: cs)
    · have hboth : '\n' ∉ c :: cs ++ tail := fun hmem =>
        (List.mem_append.mp hmem).elim hfeed htail
      rw [← List.append_assoc, all_splitOn_append hboth, Bool.and_eq_true] at h
      rw [lastLine_of_notMem hfeed]
      exact h.1
    · rw [hsplit] at ih
      rw [heq, List.append_assoc, List.cons_append, all_splitOn_append hline,
        Bool.and_eq_true] at h
      rw [heq, lastLine_append_feed]
      exact ih h.2

/-! ## Starters -/

/-- **Fixing keeps comments**: the text of a comment that is fixed is accepted, as the one before
was. -/
def KeepsComments (starter : String) : Prop :=
  ∀ (c d : Comment) (text : String), c.starter = starter → c.withText text = .ok d →
    ∃ fixed, d.fix.text = some fixed ∧ c.check fixed = true ∧ c.withText fixed = .ok d.fix

/-- The text of a comment is a comment's text again when it is tidied up. -/
def StaysComment (starter text : List Char) : Prop :=
  ((tidy starter text).splitOn '\n').all (checkLine starter) = true

/-- Fixing keeps comments if tidying keeps every text that passes. -/
theorem keepsComments_iff_forall {starter : String} : KeepsComments starter ↔
    ∀ text : List Char, (text.splitOn '\n').all (checkLine starter.toList) = true →
      StaysComment starter.toList text := by
  constructor
  · intro h text htext
    have hcheck : Comment.check ⟨none, none, none, starter⟩ (String.ofList text) = true := by
      rwa [check, String.toList_ofList]
    obtain ⟨fixed, hfixed, hagain, -⟩ :=
      h ⟨none, none, none, starter⟩ _ (String.ofList text) rfl (if_pos hcheck)
    rw [fix_text rfl, Option.some.injEq, String.toList_ofList] at hfixed
    rw [check, ← hfixed, String.toList_ofList] at hagain
    exact hagain
  · rintro h c d text rfl haccepted
    rw [withText] at haccepted
    split_ifs at haccepted with hcheck
    cases haccepted
    have hagain : c.check (String.ofList (tidy c.starter.toList text.toList)) = true := by
      rw [check, String.toList_ofList]
      exact h text.toList hcheck
    refine ⟨_, congrArg Comment.text (fix_text rfl), hagain, ?_⟩
    rw [fix_text rfl]
    exact if_pos hagain

/-- **A starter that is no plain template** is lost at a ruler of dots. -/
theorem not_staysComment_dots (hsolid : ∀ c ∈ starter, isBlank c = false)
    (hplain : ¬ IsPlain starter) : ¬ StaysComment starter (starter ++ "......\n".toList) := by
  intro h
  have hparts : ∀ part ∈ [starter ++ "......\n".toList, [], [], ['\n']], lastLine part = [] := by
    have hruler : lastLine (starter ++ "......\n".toList) = [] := by
      have hfeed := lastLine_append_feed (starter ++ "......".toList) []
      rw [List.append_assoc] at hfeed
      exact hfeed
    exact List.forall_mem_cons.mpr ⟨hruler, by decide⟩
  have hlt := (dwindles hparts starter).2.resolve_left hplain
  have htail : '\n' ∉ ".....".toList := by decide
  rw [StaysComment, tidy_dots hsolid] at h
  have hcheck := checkLine_iff.mp (of_all_splitOn htail h)
  rw [compact_append] at hcheck
  rcases hcheck with hnil | hfront
  · cases (List.append_eq_nil_iff.mp hnil).2
  · have hle := hfront.sublist.count_le '$'
    have hcompact := (List.filter_sublist (p := fun c => !isBlank c)
      (l := lastLine (expand [starter ++ "......\n".toList, [], [], ['\n']] starter))).count_le '$'
    have hdots : (compact ".....".toList).count '$' = 0 := rfl
    rw [List.count_append, hdots] at hle
    exact absurd (hle.trans hcompact) (Nat.not_le.mpr hlt)

/-- **A starter that ends in a dash** loses it to a trailer. -/
theorem not_staysComment_dashes {front : List Char} (hsolid : ∀ c ∈ front, isBlank c = false)
    (hne : front ≠ []) : ¬ StaysComment (front ++ ['-']) (front ++ " ---".toList) := by
  intro h
  rw [StaysComment, tidy_dashes hsolid, all_splitOn_of_notMem (notMem_of_solid hsolid),
    checkLine_iff, compact_of_solid hsolid] at h
  rcases h with hnil | hfront
  · exact hne hnil
  · have hle := hfront.length_le
    rw [List.length_append, List.length_singleton] at hle
    omega

/-- Any other starter stays. -/
theorem staysComment_of_isPlain (hsolid : ∀ c ∈ starter, isBlank c = false)
    (hplain : IsPlain starter) (hends : EndsWell starter) {text : List Char}
    (h : (text.splitOn '\n').all (checkLine starter) = true) : StaysComment starter text := by
  have hlines := areLines_splitOn text
  have hne : tidyLines starter (text.splitOn '\n') ≠ [] :=
    tidyLines_ne_nil (List.splitOn_ne_nil _ _)
  rw [List.all_eq_true] at h
  rw [StaysComment, ← ofLines_splitOn text, tidy_ofLines hsolid hplain hlines,
    splitOn_ofLines (areLines_tidyLines hsolid hlines) hne, List.all_eq_true]
  exact fun line hline => checkLine_of_mem_tidyLines hsolid hends h hline

/-- A starter with a blank has blank texts only, and they stay blank. -/
theorem staysComment_of_isBlank (hblank : ∃ c ∈ starter, isBlank c = true) {text : List Char}
    (h : (text.splitOn '\n').all (checkLine starter) = true) : StaysComment starter text := by
  have htext := isBlankText_of_checkLine hblank h
  rw [StaysComment, checkLine_eq_isBlankText hblank, ← isBlankText_ofLines, ofLines_splitOn,
    tidy_of_isBlankText starter htext]
  exact isBlankText_substitute_blankRuns htext

theorem all_checkLine_dots (hsolid : ∀ c ∈ starter, isBlank c = false) :
    ((starter ++ "......\n".toList).splitOn '\n').all (checkLine starter) = true := by
  have hfeed : '\n' ∉ starter ++ "......".toList := by simp [notMem_of_solid hsolid]
  have hlead := checkLine_lead hsolid [] "......".toList
  have happend := all_splitOn_append (p := checkLine starter) hfeed []
  rw [List.append_assoc] at happend
  rw [List.takeWhile_nil, List.nil_append] at hlead
  refine happend.trans ?_
  rw [hlead]
  rfl

/-- The text with a trailer behind the rest of the starter passes: its first dash completes the
starter. -/
theorem all_checkLine_dashes {front : List Char} (hsolid : ∀ c ∈ front, isBlank c = false) :
    ((front ++ " ---".toList).splitOn '\n').all (checkLine (front ++ ['-'])) = true := by
  have hfeed : '\n' ∉ front ++ " ---".toList := by simp [notMem_of_solid hsolid]
  have hcompact : compact (front ++ " ---".toList) = front ++ ['-'] ++ "--".toList := by
    rw [compact_append, compact_of_solid hsolid, List.append_assoc]
    rfl
  rw [all_splitOn_of_notMem hfeed, checkLine_iff, hcompact]
  exact .inr (List.prefix_append _ _)

/-- **Comments are kept** exactly for these starters: those with a blank, which no line can begin
with, and those that stand for themselves in a template and do not end with a dash, but for the
dash alone. -/
theorem keepsComments_iff {starter : String} : KeepsComments starter ↔
    (∃ c ∈ starter.toList, isBlank c = true) ∨
      IsPlain starter.toList ∧ (starter = "-" ∨ starter.toList.getLast? ≠ some '-') := by
  rw [keepsComments_iff_forall]
  by_cases hblank : ∃ c ∈ starter.toList, isBlank c = true
  · exact iff_of_true (fun text => staysComment_of_isBlank hblank) (.inl hblank)
  have hsolid : ∀ c ∈ starter.toList, isBlank c = false := by simpa using hblank
  rw [or_iff_right hblank]
  constructor
  · intro h
    refine ⟨?_, ?_⟩
    · by_contra hplain
      exact not_staysComment_dots hsolid hplain (h _ (all_checkLine_dots hsolid))
    · by_contra hends
      obtain ⟨hdash, hlast⟩ := not_or.mp hends
      obtain ⟨front, hfront⟩ := List.getLast?_eq_some_iff.mp (not_not.mp hlast)
      have hne : front ≠ [] := by
        rintro rfl
        exact hdash (String.toList_injective hfront)
      rw [hfront] at h hsolid
      have hsolid' : ∀ c ∈ front, isBlank c = false := fun c hc =>
        hsolid c (List.mem_append_left _ hc)
      exact not_staysComment_dashes hsolid' hne (h _ (all_checkLine_dashes hsolid'))
  · rintro ⟨hplain, hends⟩ text htext
    have hends' : EndsWell starter.toList := hends.imp_left fun h => by rw [h]; rfl
    exact staysComment_of_isPlain hsolid hplain hends' htext

/-- A dash of the starter is taken away with those behind it, and a doubled dollar sign becomes
one. -/
theorem fix_loses_starter :
    (∃ d, ((template none none).withStarter "#-").withText "#----" = .ok d ∧
      d.fix.text = some "#" ∧ d.fix.check "#" = false) ∧
    ∃ d, ((template none none).withStarter "$$").withText "$$------ note" = .ok d ∧
      d.fix.text = some "$----- note" ∧ d.fix.check "$----- note" = false := by
  refine ⟨⟨_, if_pos (by decide +kernel), ?_, ?_⟩, ⟨_, if_pos (by decide +kernel), ?_, ?_⟩⟩
  all_goals decide +kernel

end Tabletop.Comment
