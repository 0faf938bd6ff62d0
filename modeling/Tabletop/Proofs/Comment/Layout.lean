import Tabletop.Comment.Basic
import Tabletop.Proofs.Comment.Agreement
import Tabletop.Proofs.Comment.Empties
import Tabletop.Proofs.Comment.Rulers

/-!
# Tidying up line by line

Four rules tidy up the text of a comment, each of them going through the whole of it. What do they do
to its lines?

* Dashes are taken away from the end of a line: it is cut **at the first place** with nothing but
  dashes and gaps behind it (`untrailed`, `substitute_dashTrailers`). A line that ends otherwise keeps
  its end (`untrailed_eq_self`);
* so for a plain starter without blanks **lines are tidied up** one rule after the other
  (`tidyLines`, `tidy_ofLines`);
* with a starter that has a blank, only blank texts are accepted (`isBlankText_of_checkLine`), and in
  those nothing but empty lines is found (`tidy_of_isBlankText`).
-/

namespace Tabletop.Comment

open Text

variable {cs rest line : List Char} {ls : List (List Char)}

/-! ## Dashes at the ends of lines -/

/-- Three dashes and more up to the end of a line. -/
def isTrailer (cs : List Char) : Bool :=
  let dashes := cs.dropWhile isGap
  decide (3 ≤ (dashes.takeWhile (· = '-')).length) && (dashes.dropWhile (· = '-')).all isGap

/-- A line without the dashes at its end. -/
def untrailed (line : List Char) : List Char := upTo isTrailer line

/-- A trailer has three dashes behind its gaps, and nothing but gaps behind these. -/
theorem isTrailer_iff : isTrailer cs = true ↔
    3 ≤ ((cs.dropWhile isGap).takeWhile fun c => decide (c = '-')).length ∧
      ∀ c ∈ (cs.dropWhile isGap).dropWhile fun c => decide (c = '-'), isGap c = true := by
  rw [isTrailer, Bool.and_eq_true, decide_eq_true_eq, List.all_eq_true]

/-- What is taken away is dashes and gaps. -/
theorem mem_of_isTrailer (h : isTrailer cs = true) {c : Char} (hc : c ∈ cs) :
    isGap c = true ∨ c = '-' := by
  obtain ⟨-, hgaps⟩ := isTrailer_iff.mp h
  rw [← List.takeWhile_append_dropWhile (p := isGap) (l := cs), List.mem_append] at hc
  rcases hc with hc | hc
  · exact .inl (List.mem_takeWhile_imp hc)
  rw [← List.takeWhile_append_dropWhile (p := fun c => decide (c = '-'))
    (l := cs.dropWhile isGap), List.mem_append] at hc
  rcases hc with hc | hc
  · exact .inr (by simpa using List.mem_takeWhile_imp hc)
  · exact .inl (hgaps c hc)

theorem mem_dash_of_isTrailer (h : isTrailer cs = true) : '-' ∈ cs := by
  obtain ⟨hthree, -⟩ := isTrailer_iff.mp h
  have hne : ((cs.dropWhile isGap).takeWhile fun c => decide (c = '-')) ≠ [] := by
    intro hnil
    rw [hnil] at hthree
    cases hthree
  obtain ⟨c, more, hcons⟩ := List.exists_cons_of_ne_nil hne
  have hmem : c ∈ (cs.dropWhile isGap).takeWhile fun c => decide (c = '-') := by rw [hcons]; simp
  obtain rfl : c = '-' := by simpa using List.mem_takeWhile_imp hmem
  exact (List.dropWhile_sublist _).subset ((List.takeWhile_sublist _).subset hmem)

/-- **A line that ends otherwise**, but for gaps, keeps its end. -/
theorem untrailed_eq_self {front gaps : List Char} {c : Char} (hgap : isGap c = false)
    (hc : c ≠ '-') (hgaps : ∀ d ∈ gaps, isGap d = true) :
    untrailed (front ++ c :: gaps) = front ++ c :: gaps := by
  rw [untrailed, upTo_eq_self_iff]
  intro d t ht
  rw [Bool.eq_false_iff]
  intro htrailer
  have hnot : c ∉ d :: t := fun hmem => by
    rcases mem_of_isTrailer htrailer hmem with h | h
    · rw [h] at hgap
      cases hgap
    · exact hc h
  -- so it stands within the gaps, and has no dash
  rcases List.suffix_or_suffix_of_suffix ht (List.suffix_append front (c :: gaps)) with h | h
  · rcases List.suffix_cons_iff.mp h with heq | h
    · exact hnot (heq ▸ List.mem_cons_self)
    · have hdash := hgaps '-' (h.subset (mem_dash_of_isTrailer htrailer))
      cases hdash
  · exact hnot (h.subset List.mem_cons_self)

/-- A short ruler of dots has no trailer. -/
theorem untrailed_dots (starter line : List Char) :
    untrailed (dots starter line) = dots starter line := by
  have hdots : dots starter line = line.takeWhile isGap ++ starter ++ "....".toList ++ ['.'] := by
    simp [dots]
  rw [hdots, untrailed_eq_self rfl (by decide) (List.forall_mem_nil _)]

/-- A long ruler of dots has no trailer either, so it is still one when dots are shortened. -/
theorem untrailed_of_isDotted {starter : List Char} (h : isDotted starter line = true) :
    untrailed line = line := by
  obtain ⟨n, behind, hn, heq, hgaps⟩ := eq_of_isDotted h
  obtain ⟨m, rfl⟩ := Nat.exists_eq_add_of_le' hn
  have hline :
      line = line.takeWhile isGap ++ starter ++ List.replicate (m + 5) '.' ++ '.' :: behind := by
    conv => lhs; rw [heq, List.replicate_succ']
    simp
  rw [hline, untrailed_eq_self rfl (by decide) hgaps]

/-- **Where dashes are taken away**: at what is left of a line, if that is dashes and gaps. -/
theorem dashTrailers_append (b : Bool) (hline : '\n' ∉ line) (hrest : AtFeed rest) :
    dashTrailers b (line ++ rest) =
      if isTrailer line then
        (lineEnd? rest).map fun (feed, behind) => (feed, (line ++ rest).length - behind.length)
      else none := by
  have hhead := hrest.head (p := fun c => decide (c = '-')) rfl
  have hdashes : '\n' ∉ (line.dropWhile isGap).dropWhile fun c => decide (c = '-') := fun hmem =>
    hline ((List.dropWhile_sublist _).subset ((List.dropWhile_sublist _).subset hmem))
  rw [dashTrailers, dropWhile_append_of_head (hrest.head rfl)]
  dsimp only
  rw [takeWhile_append_of_head hhead, dropWhile_append_of_head hhead, lineEnd?_append hdashes,
    isTrailer]
  by_cases hthree : 3 ≤ ((line.dropWhile isGap).takeWhile fun c => decide (c = '-')).length
  · rw [if_pos hthree, decide_eq_true hthree, Bool.true_and]
    split <;> rfl
  · rw [if_neg hthree, decide_eq_false hthree]
    rfl

/-- **Dashes** are taken away from the end of each line. -/
theorem substitute_dashTrailers (h : AreLines ls) :
    substitute dashTrailers (ofLines ls) = ofLines (ls.map untrailed) := by
  rw [substitute_eq_false fun _ => rfl]
  induction ls with
  | nil => rw [ofLines, substituteFrom]; rfl
  | cons line ls ih =>
    obtain ⟨hline, hls⟩ := List.forall_mem_cons.mp h
    have hfits : ∀ rest c t, AtFeed rest → c :: t <:+ line → dashTrailers false (c :: t ++ rest) =
        if isTrailer (c :: t) then (lineEnd? rest).map fun (feed, behind) =>
          (feed, (c :: t ++ rest).length - behind.length)
        else none := fun rest c t hrest ht =>
      dashTrailers_append false (fun hmem => hline (ht.subset hmem)) hrest
    rw [ofLines_cons, List.map_cons, ofLines_cons, untrailed]
    cases ls with
    | nil =>
      rw [behindFeeds_nil, substituteFrom_line (p := isTrailer) List.nil_suffix fun c t ht =>
        hfits [] c t atFeed_nil ht]
      rw [substituteFrom]
      split_ifs with hcut
      · rw [hcut]; rfl
      · rw [List.append_nil]; rfl
    | cons next ls =>
      have hfeed : dashTrailers false ('\n' :: ofLines (next :: ls)) = none :=
        dashTrailers_append false List.not_mem_nil (atFeed_cons (ofLines (next :: ls)))
      rw [behindFeeds_cons, substituteFrom_line (p := isTrailer) (List.suffix_cons '\n' _)
        fun c t ht => hfits _ c t (atFeed_cons _) ht, substituteFrom_of_none hfeed, ih hls]
      split_ifs with hcut
      · rw [hcut]; rfl
      · rw [List.append_assoc]; rfl

/-! ## All rules -/

/-- The lines that the first three rules leave. -/
def halfTidied (starter : List Char) (ls : List (List Char)) : List (List Char) :=
  ((mergeEmpties ls).map (shorten starter)).map untrailed

/-- Lines that are tidied up. -/
def tidyLines (starter : List Char) (ls : List (List Char)) : List (List Char) :=
  shortDots starter (halfTidied starter ls)

theorem areLines_map_untrailed (h : AreLines ls) : AreLines (ls.map untrailed) := by
  intro line hline
  obtain ⟨before, hbefore, rfl⟩ := List.mem_map.mp hline
  exact fun hmem => h before hbefore ((upTo_isPrefix isTrailer before).subset hmem)

theorem halfTidied_ne_nil {starter : List Char} (h : ls ≠ []) : halfTidied starter ls ≠ [] := by
  simp [halfTidied, mergeEmpties_ne_nil h]

theorem tidyLines_ne_nil {starter : List Char} (h : ls ≠ []) : tidyLines starter ls ≠ [] := by
  rw [tidyLines, ne_eq, shortDots_eq_nil_iff]
  exact halfTidied_ne_nil h

section Plain

variable {starter : List Char} (hsolid : ∀ c ∈ starter, isBlank c = false)
include hsolid

theorem areLines_map_shorten (h : AreLines ls) : AreLines (ls.map (shorten starter)) := by
  intro line hline
  obtain ⟨before, hbefore, rfl⟩ := List.mem_map.mp hline
  have hfeed := h before hbefore
  rw [shorten]
  split
  · rename_i behind hruler
    have hgap : '\n' ∉ before.takeWhile isGap := fun hmem =>
      hfeed ((List.takeWhile_sublist _).subset hmem)
    have hbehind : '\n' ∉ behind := fun hmem => hfeed ((behindRuler?_suffix hruler).subset hmem)
    simp [hgap, notMem_of_solid hsolid, hbehind]
  · exact hfeed

theorem areLines_halfTidied (h : AreLines ls) : AreLines (halfTidied starter ls) :=
  areLines_map_untrailed (areLines_map_shorten hsolid (areLines_mergeEmpties h))

theorem areLines_tidyLines (h : AreLines ls) : AreLines (tidyLines starter ls) := by
  have hleft := areLines_halfTidied hsolid h
  intro line hline
  obtain rfl | hmem | ⟨before, hbefore, -, rfl⟩ := mem_shortDots hline
  · exact List.not_mem_nil
  · exact hleft line hmem
  · have hgap : '\n' ∉ before.takeWhile isGap := fun hmem =>
      hleft before hbefore ((List.takeWhile_sublist _).subset hmem)
    simp [dots, hgap, notMem_of_solid hsolid]

variable (hplain : IsPlain starter)
include hplain

/-- What the first three rules leave, line by line. -/
theorem ofLines_halfTidied (h : AreLines ls) :
    substitute dashTrailers (substitute (longRulers starter) (substitute blankRuns (ofLines ls))) =
      ofLines (halfTidied starter ls) := by
  have hmerged := areLines_mergeEmpties h
  rw [substitute_blankRuns h, substitute_longRulers hsolid hplain hmerged,
    substitute_dashTrailers (areLines_map_shorten hsolid hmerged), halfTidied]

/-- **Tidying up**, line by line. -/
theorem tidy_ofLines (h : AreLines ls) :
    tidy starter (ofLines ls) = ofLines (tidyLines starter ls) := by
  rw [tidy, ofLines_halfTidied hsolid hplain h,
    substitute_dottedRulers hsolid hplain (areLines_halfTidied hsolid h), tidyLines]

end Plain

/-! ## Blank texts -/

theorem isBlankText_behindFeeds (ls : List (List Char)) :
    isBlankText (behindFeeds ls) = ls.all isBlankText := by
  induction ls with
  | nil => rfl
  | cons line ls ih =>
    rw [behindFeeds_cons, isBlankText_cons, ofLines_cons, isBlankText_append, ih]
    rfl

theorem isBlankText_ofLines (ls : List (List Char)) :
    isBlankText (ofLines ls) = ls.all isBlankText := by
  cases ls with
  | nil => rfl
  | cons line ls => rw [ofLines_cons, isBlankText_append, isBlankText_behindFeeds]; rfl

theorem all_isBlankText_mergeEmpties (h : ls.all isBlankText = true) :
    (mergeEmpties ls).all isBlankText = true := by
  rw [List.all_eq_true] at h ⊢
  intro line hline
  obtain rfl | ⟨fill, -, hmem⟩ := mem_mergeEmpties hline
  · rfl
  · have hblank := h _ hmem
    rw [isBlankText_append, Bool.and_eq_true] at hblank
    exact hblank.1

theorem sixOf?_of_notMem {mark : Char} (h : mark ∉ cs) : sixOf? mark cs = none := by
  cases hsix : sixOf? mark cs with
  | none => rfl
  | some rest =>
    obtain ⟨-, n, hn, rfl⟩ := sixOf?_eq_some_iff.mp hsix
    have hne : n ≠ 0 := by omega
    exact absurd (List.mem_append_left rest (List.mem_replicate.mpr ⟨hne, rfl⟩)) h

/-- Without a dash there is no trailer. -/
theorem dashTrailers_of_notMem (h : '-' ∉ cs) (b : Bool) : dashTrailers b cs = none := by
  have hnone : ((cs.dropWhile isGap).takeWhile fun c => decide (c = '-')) = [] := by
    rw [List.eq_nil_iff_forall_not_mem]
    intro c hc
    obtain rfl : c = '-' := by simpa using List.mem_takeWhile_imp hc
    exact h ((List.dropWhile_sublist _).subset ((List.takeWhile_sublist _).subset hc))
  rw [dashTrailers]
  dsimp only
  rw [hnone]
  rfl

/-- Nothing visible is in blank text. -/
theorem notMem_of_isBlankText {c : Char} (hc : isBlank c = false) (h : isBlankText cs = true) :
    c ∉ cs := fun hmem => by
  rw [List.all_eq_true.mp h c hmem] at hc
  cases hc

/-- Blank text stays blank when its empty lines are merged. -/
theorem isBlankText_substitute_blankRuns (h : isBlankText cs = true) :
    isBlankText (substitute blankRuns cs) = true := by
  rw [← ofLines_splitOn cs] at h ⊢
  rw [isBlankText_ofLines] at h
  rw [substitute_blankRuns (areLines_splitOn cs), isBlankText_ofLines,
    all_isBlankText_mergeEmpties h]

section Blank

variable (starter : List Char) (h : isBlankText cs = true)
include h

/-- Blank text has no ruler of dashes. -/
theorem substitute_longRulers_of_isBlankText : substitute (longRulers starter) cs = cs := by
  have hdash : '-' ∉ cs := notMem_of_isBlankText rfl h
  refine substitute_eq_self fun b c t ht => starterRule_eq_none (fun text htext => ?_) b
  rw [sixOf?_of_notMem fun hmem => hdash (ht.subset (htext.subset hmem))]
  rfl

/-- Blank text has no trailers. -/
theorem substitute_dashTrailers_of_isBlankText : substitute dashTrailers cs = cs := by
  have hdash : '-' ∉ cs := notMem_of_isBlankText rfl h
  exact substitute_eq_self fun b c t ht =>
    dashTrailers_of_notMem (fun hmem => hdash (ht.subset hmem)) b

/-- Blank text has no ruler of dots. -/
theorem substitute_dottedRulers_of_isBlankText : substitute (dottedRulers starter) cs = cs := by
  have hdot : '.' ∉ cs := notMem_of_isBlankText rfl h
  refine substitute_eq_self fun b c t ht => starterRule_eq_none (fun text htext => ?_) b
  rw [sixOf?_of_notMem fun hmem => hdot (ht.subset (htext.subset hmem))]
  rfl

/-- **In a blank text** nothing but empty lines is found. -/
theorem tidy_of_isBlankText : tidy starter cs = substitute blankRuns cs := by
  have hblank := isBlankText_substitute_blankRuns h
  rw [tidy, substitute_longRulers_of_isBlankText starter hblank,
    substitute_dashTrailers_of_isBlankText hblank,
    substitute_dottedRulers_of_isBlankText starter hblank]

end Blank

/-! ## Accepted texts -/

theorem fix_text {c : Comment} {text : String} (h : c.text = some text) :
    c.fix = { c with text := some (String.ofList (tidy c.starter.toList text.toList)) } := by
  rw [fix, h]
  rfl

/-- With a blank in the starter, only blank lines pass: the starter is looked for where no blanks
are left. -/
theorem checkLine_eq_isBlankText {starter : List Char} (h : ∃ x ∈ starter, isBlank x = true) :
    checkLine starter = isBlankText := funext fun line => checkLine_of_isBlank h line

/-- A text is blank if the starter has a blank, for no line begins with that. -/
theorem isBlankText_of_checkLine {starter text : List Char}
    (hblank : ∃ x ∈ starter, isBlank x = true)
    (h : (text.splitOn '\n').all (checkLine starter) = true) : isBlankText text = true := by
  rwa [checkLine_eq_isBlankText hblank, ← isBlankText_ofLines, ofLines_splitOn] at h

end Tabletop.Comment
