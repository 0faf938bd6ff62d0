import Tabletop.Comment.Basic
import Tabletop.Proofs.Text.Lines

/-!
# Checking and reading comments

A comment can be checked or read. Both go line by line, but they do not ask the same of a line:
checking drops all of its blanks before it looks for the starter, reading only those at its ends.

* **takesLine** is what reading asks: without limits it takes a whole text exactly if it takes all
  of its lines (`readLines_unlimited`), and within any limits the lines it has read are such lines
  (`all_takesLine_readLines`);
* so checking and reading **agree exactly for the starters for which the two questions about a line
  are one** (`agreement`): those of one character, and those that no line can begin with
  (`Opens`). With two characters the check lets a blank between them pass, and a starter with a
  blank inside never passes it.
-/

namespace Tabletop

open Text

namespace Comment

/-! ## What is asked of a line -/

/-- Whether reading takes a line: it is blank, or begins with the starter behind its blanks. -/
def takesLine (starter line : List Char) : Bool :=
  isBlankText line || starter.isPrefixOf (trim line)

/-- A line can begin with the starter: it has no line feed, and no blank in front. -/
def Opens (starter : List Char) : Prop :=
  '\n' ∉ starter ∧ ∃ c rest, starter = c :: rest ∧ isBlank c = false

variable {starter line : List Char}

theorem takesLine_nil (starter : List Char) : takesLine starter [] = true := rfl

/-- Checking a line looks at what is left of it without blanks. -/
theorem checkLine_eq (starter line : List Char) :
    checkLine starter line =
      (isBlankText line || starter.isPrefixOf (line.filter fun c => !isBlank c)) := by
  rw [checkLine, isEmpty_filter]

/-- **A starter without blanks** passes the check wherever reading finds it. -/
theorem checkLine_of_takesLine (hstarter : ∀ c ∈ starter, isBlank c = false)
    (h : takesLine starter line = true) : checkLine starter line = true := by
  rw [checkLine_eq, Bool.or_eq_true]
  rcases Bool.or_eq_true_iff.mp h with hblank | hprefix
  · exact .inl hblank
  · right
    rw [List.isPrefixOf_iff_prefix] at hprefix ⊢
    have hfilter := hprefix.filter fun c => !isBlank c
    rwa [filter_trim, List.filter_eq_self.mpr fun c hmem => by rw [hstarter c hmem]; rfl] at hfilter

/-- **One character** is found alike: it is the first one of the line that is no blank. -/
theorem checkLine_singleton (c : Char) (line : List Char) :
    checkLine [c] line = takesLine [c] line := by
  rw [checkLine_eq, takesLine]
  cases hline : isBlankText line with
  | true => rfl
  | false =>
    obtain ⟨d, rest, htrim, hd⟩ := exists_trim_eq_cons hline
    rw [← filter_trim, htrim, List.filter_cons_of_pos (by simp [hd])]
    rfl

/-- **A starter with a blank** never passes the check. -/
theorem checkLine_of_isBlank (h : ∃ c ∈ starter, isBlank c = true) (line : List Char) :
    checkLine starter line = isBlankText line := by
  rw [checkLine_eq, Bool.or_eq_left_iff_imp]
  intro hprefix
  obtain ⟨c, hc, hblank⟩ := h
  have hmem := (List.isPrefixOf_iff_prefix.mp hprefix).subset hc
  simp [hblank] at hmem

/-- **A starter that no line can begin with** is never found by reading. -/
theorem takesLine_of_not_opens (hne : starter ≠ []) (h : ¬ Opens starter) (hline : '\n' ∉ line) :
    takesLine starter line = isBlankText line := by
  rw [takesLine, Bool.or_eq_left_iff_imp]
  intro hprefix
  cases hblank : isBlankText line with
  | true => rfl
  | false =>
    obtain ⟨c, rest, htrim, hc⟩ := exists_trim_eq_cons hblank
    have hstart := List.isPrefixOf_iff_prefix.mp hprefix
    have hfeed : '\n' ∉ starter := fun hmem => hline (trim_subset line (hstart.subset hmem))
    obtain ⟨d, ds, rfl⟩ := List.exists_cons_of_ne_nil hne
    rw [htrim, List.cons_prefix_cons] at hstart
    exact absurd ⟨hfeed, d, ds, rfl, hstart.1 ▸ hc⟩ h

/-- A starter that no line can begin with has a blank. -/
theorem exists_isBlank_of_not_opens (hne : starter ≠ []) (h : ¬ Opens starter) :
    ∃ c ∈ starter, isBlank c = true := by
  obtain ⟨c, cs, rfl⟩ := List.exists_cons_of_ne_nil hne
  cases hc : isBlank c with
  | true => exact ⟨c, List.mem_cons_self, hc⟩
  | false =>
    have hfeed : '\n' ∈ c :: cs := by
      by_contra hmem
      exact h ⟨hmem, c, cs, rfl, hc⟩
    exact ⟨'\n', hfeed, rfl⟩

/-! ## Lines that tell them apart -/

/-- Checked but not taken: a blank behind the first of several characters. -/
theorem exists_checkLine_not_takesLine (hstarter : ∀ c ∈ starter, isBlank c = false)
    (hlength : 2 ≤ starter.length) :
    ∃ line, '\n' ∉ line ∧ checkLine starter line = true ∧ takesLine starter line = false := by
  match starter, hlength with
  | c :: d :: rest, _ =>
    obtain ⟨hc, hd, hrest⟩ : isBlank c = false ∧ isBlank d = false ∧
        ∀ e ∈ rest, isBlank e = false := by simpa using hstarter
    have hblank : isBlankText (c :: ' ' :: d :: rest) = false := by
      rw [isBlankText_cons, hc, Bool.false_and]
    have hcompact : (c :: ' ' :: d :: rest).filter (fun e => !isBlank e) = c :: d :: rest := by
      have hspace : isBlank ' ' = true := rfl
      have hself : rest.filter (fun e => !isBlank e) = rest :=
        List.filter_eq_self.mpr fun e he => by rw [hrest e he]; rfl
      simp [hc, hd, hspace, hself]
    refine ⟨c :: ' ' :: d :: rest, ?_, ?_, ?_⟩
    · have hfeed : '\n' ∉ c :: d :: rest := fun hmem => absurd (hstarter _ hmem) (by decide)
      simpa using hfeed
    · rw [checkLine_eq, hcompact, Bool.or_eq_true, List.isPrefixOf_iff_prefix]
      exact .inr (List.prefix_refl _)
    · rw [takesLine, hblank, Bool.false_or, Bool.eq_false_iff, ne_eq, List.isPrefixOf_iff_prefix]
      intro hprefix
      have hstart := hprefix.trans (trim_isPrefix _)
      rw [trimStart_cons hc, List.cons_prefix_cons, List.cons_prefix_cons] at hstart
      obtain ⟨-, rfl, -⟩ := hstart
      cases hd

/-- Taken but not checked: the starter with a blank, and a character behind it. -/
theorem exists_takesLine_not_checkLine (hopens : Opens starter)
    (hblank : ∃ c ∈ starter, isBlank c = true) :
    ∃ line, '\n' ∉ line ∧ takesLine starter line = true ∧ checkLine starter line = false := by
  obtain ⟨hfeed, c, rest, rfl, hc⟩ := hopens
  have hline : isBlankText (c :: rest ++ ['x']) = false := by
    rw [List.cons_append, isBlankText_cons, hc, Bool.false_and]
  refine ⟨c :: rest ++ ['x'], ?_, ?_, (checkLine_of_isBlank hblank _).trans hline⟩
  · rw [List.mem_append, not_or]
    exact ⟨hfeed, by decide⟩
  · rw [takesLine, trim_eq_self hc (by decide), Bool.or_eq_true, List.isPrefixOf_iff_prefix]
    exact .inr (List.prefix_append _ _)

/-! ## Starters -/

/-- A starter that no line can begin with is found by neither. -/
theorem checkLine_eq_takesLine_of_not_opens (h : ¬ Opens starter) (hline : '\n' ∉ line) :
    checkLine starter line = takesLine starter line := by
  rcases eq_or_ne starter [] with rfl | hne
  · rw [checkLine_eq, takesLine]
    rfl
  · rw [checkLine_of_isBlank (exists_isBlank_of_not_opens hne h),
      takesLine_of_not_opens hne h hline]

/-- **The same is asked of every line** exactly if the starter is one character, or no line can
begin with it. -/
theorem forall_checkLine_iff_takesLine_iff :
    (∀ line, '\n' ∉ line → (checkLine starter line = true ↔ takesLine starter line = true)) ↔
      (Opens starter → starter.length = 1) := by
  constructor
  · intro h hopens
    by_contra hlength
    by_cases hblank : ∃ x ∈ starter, isBlank x = true
    · obtain ⟨line, hline, htakes, hcheck⟩ := exists_takesLine_not_checkLine hopens hblank
      rw [(h line hline).mpr htakes] at hcheck
      cases hcheck
    · have hlong : 2 ≤ starter.length := by
        obtain ⟨-, c, rest, rfl, -⟩ := hopens
        simp only [List.length_cons] at hlength ⊢
        omega
      have hnone : ∀ x ∈ starter, isBlank x = false := by simpa using hblank
      obtain ⟨line, hline, hcheck, htakes⟩ := exists_checkLine_not_takesLine hnone hlong
      rw [(h line hline).mp hcheck] at htakes
      cases htakes
  · intro h line hline
    by_cases hopens : Opens starter
    · obtain ⟨x, rfl⟩ := List.length_eq_one_iff.mp (h hopens)
      rw [checkLine_singleton]
    · rw [checkLine_eq_takesLine_of_not_opens hopens hline]

/-- **Every line that is taken passes the check** exactly if the starter has no blank, or no line
can begin with it. -/
theorem forall_checkLine_of_takesLine_iff :
    (∀ line, '\n' ∉ line → takesLine starter line = true → checkLine starter line = true) ↔
      (Opens starter → ∀ x ∈ starter, isBlank x = false) := by
  constructor
  · intro h hopens x hx
    by_contra hblank
    obtain ⟨line, hline, htakes, hcheck⟩ := exists_takesLine_not_checkLine hopens
      ⟨x, hx, by simpa using hblank⟩
    rw [h line hline htakes] at hcheck
    cases hcheck
  · intro h line hline htakes
    by_cases hopens : Opens starter
    · exact checkLine_of_takesLine (h hopens) htakes
    · rwa [checkLine_eq_takesLine_of_not_opens hopens hline]

/-! ## Reading lines -/

/-- **The lines that are read** are lines that reading takes. -/
theorem all_takesLine_readLines (starter : List Char) (comments lines : Option Nat)
    (inComment : Bool) (cs : List Char) :
    ((readLines starter comments lines inComment cs).1.splitOn '\n').all (takesLine starter) =
      true := by
  fun_induction readLines starter comments lines inComment cs with
  | case1 | case2 | case5 => rfl
  | case3 comments lines inComment c cs hlimit line rest hline left read rest' hread ih =>
    have hfeed : '\n' ∉ ([] : List Char) := List.not_mem_nil
    rw [hread] at ih
    rw [← List.nil_append ('\n' :: read), all_splitOn_append hfeed, ih, takesLine_nil,
      Bool.and_self]
  | case4 comments lines inComment c cs hlimit line rest hline hstart read rest' hread ih =>
    rw [hread] at ih
    rw [all_splitOn_append (notMem_splitLine (c :: cs)), ih, Bool.and_true, takesLine,
      Bool.or_eq_true]
    exact .inr hstart

/-- The step of reading without limits: a blank line is emptied, another one kept. -/
theorem readLines_cons (starter : List Char) (inComment : Bool) (c : Char) (cs : List Char) :
    readLines starter none none inComment (c :: cs) =
      let line := (splitLine (c :: cs)).1
      let behind := readLines starter none none (!isBlankText line) (splitLine (c :: cs)).2
      if takesLine starter line then
        ((if isBlankText line then [] else line) ++ '\n' :: behind.1, behind.2)
      else ([], c :: cs) := by
  rw [readLines]
  cases hblank : isBlankText (splitLine (c :: cs)).1 with
  | true => simp [takesLine, hblank]
  | false => simp [takesLine, hblank]

/-- **Without limits** reading takes a text whole exactly if it takes all of its lines, and then it
has read no more than blanks exactly if there is no more. -/
theorem readLines_unlimited (starter : List Char) (inComment : Bool) (cs : List Char) :
    ((readLines starter none none inComment cs).2 = [] ↔
        (cs.splitOn '\n').all (takesLine starter) = true) ∧
      ((readLines starter none none inComment cs).2 = [] →
        isBlankText (readLines starter none none inComment cs).1 = isBlankText cs) := by
  induction cs using lines_induction generalizing inComment with
  | nil =>
    rw [readLines]
    exact ⟨iff_of_true rfl rfl, fun _ => rfl⟩
  | cons c cs ih =>
    obtain ⟨hall, htext⟩ := ih (!isBlankText (splitLine (c :: cs)).1)
    rw [readLines_cons, all_splitOn (takesLine_nil starter), Bool.and_eq_true,
      isBlankText_eq_splitLine (c :: cs)]
    dsimp only
    split_ifs with htakes hblank
    · refine ⟨hall.trans (and_iff_right htakes).symm, fun hrest => ?_⟩
      rw [List.nil_append, isBlankText_cons, htext hrest, hblank]
      rfl
    · refine ⟨hall.trans (and_iff_right htakes).symm, fun hrest => ?_⟩
      rw [isBlankText_append, isBlankText_cons, htext hrest]
      rfl
    · exact ⟨iff_of_false id fun h => htakes h.1, False.elim⟩

/-! ## Agreement -/

/-- **Checking agrees with reading** if of all texts that are not blank those pass the check that
are read whole. -/
def Agrees (c : Comment) : Prop :=
  ∀ text : String, isBlankText text.toList = false →
    (c.check text = true ↔ ∃ d, c.read text.toList = (some d, []))

/-- The text of every comment that is read passes the check, and can be set. -/
def ChecksRead (c : Comment) : Prop :=
  ∀ source d rest, c.read source = (some d, rest) →
    ∃ text, d.text = some text ∧ c.check text = true ∧ c.withText text = .ok d

variable {c : Comment}

/-- Reading without limits, in terms of lines. -/
theorem exists_read_iff (hcomments : c.maxComments = none) (hlines : c.maxLines = none)
    {cs : List Char} (hcs : isBlankText cs = false) :
    (∃ d, c.read cs = (some d, [])) ↔
      (cs.splitOn '\n').all (takesLine c.starter.toList) = true := by
  obtain ⟨hall, htext⟩ := readLines_unlimited c.starter.toList false cs
  rw [← hall, read, hcomments, hlines, if_neg (by rintro ⟨⟩)]
  dsimp only
  split_ifs with hblank
  · refine iff_of_false (by rintro ⟨d, ⟨⟩⟩) fun hrest => ?_
    rw [htext hrest, hcs] at hblank
    cases hblank
  · refine ⟨?_, fun hrest => ⟨_, by rw [hrest]⟩⟩
    rintro ⟨d, hd⟩
    exact (Prod.mk.inj hd).2

/-- What is read is a text of lines that reading takes, and not blank. -/
theorem read_eq_some {d : Comment} {source rest : List Char} (h : c.read source = (some d, rest)) :
    ∃ cs, d = { c with text := some (String.ofList cs) } ∧ isBlankText cs = false ∧
      (cs.splitOn '\n').all (takesLine c.starter.toList) = true := by
  rw [read] at h
  split_ifs at h with hcomments
  · cases h
  · dsimp only at h
    split_ifs at h with hblank
    · cases h
    · obtain ⟨hd, -⟩ := Prod.mk.inj h
      exact ⟨_, (Option.some.inj hd).symm, Bool.eq_false_iff.mpr hblank,
        all_takesLine_readLines _ _ _ _ _⟩

/-- A single line that reading takes is read whole. -/
theorem read_line (hcomments : c.maxComments = none) (hlines : c.maxLines = none)
    {line : List Char} (hline : '\n' ∉ line) (hblank : isBlankText line = false)
    (h : takesLine c.starter.toList line = true) :
    c.read line = (some { c with text := some (String.ofList (line ++ ['\n'])) }, []) := by
  have hlast : readLines c.starter.toList none none false line = (line ++ ['\n'], []) := by
    cases line with
    | nil => cases hblank
    | cons d ds =>
      rw [readLines_cons, splitLine_of_notMem hline]
      dsimp only
      rw [if_pos h, hblank, readLines]
      rfl
  rw [read, hcomments, hlines, if_neg (by rintro ⟨⟩), hlast]
  dsimp only
  rw [if_neg (by rw [isBlankText_append, hblank]; rintro ⟨⟩)]

/-- Checking and reading agree exactly if they ask the same of every line. -/
theorem agrees_iff_lines (hcomments : c.maxComments = none) (hlines : c.maxLines = none) :
    c.Agrees ↔ ∀ line, '\n' ∉ line →
      (checkLine c.starter.toList line = true ↔ takesLine c.starter.toList line = true) := by
  constructor
  · intro h line hline
    cases hblank : isBlankText line with
    | true => exact iff_of_true (by rw [checkLine_eq, hblank]; rfl) (by rw [takesLine, hblank]; rfl)
    | false =>
      have htext := h (String.ofList line) (by rwa [String.toList_ofList])
      rwa [String.toList_ofList, exists_read_iff hcomments hlines hblank, check,
        String.toList_ofList, all_splitOn_of_notMem hline, all_splitOn_of_notMem hline] at htext
  · intro h text hblank
    rw [exists_read_iff hcomments hlines hblank, check]
    exact ⟨all_splitOn_mono fun line hline => (h line hline).mp,
      all_splitOn_mono fun line hline => (h line hline).mpr⟩

/-- What is read passes the check exactly if all lines do that reading takes. -/
theorem checksRead_iff_lines (hcomments : c.maxComments = none) (hlines : c.maxLines = none) :
    c.ChecksRead ↔ ∀ line, '\n' ∉ line →
      takesLine c.starter.toList line = true → checkLine c.starter.toList line = true := by
  constructor
  · intro h line hline htakes
    cases hblank : isBlankText line with
    | true => rw [checkLine_eq, hblank, Bool.true_or]
    | false =>
      obtain ⟨text, htext, hcheck, -⟩ :=
        h line _ [] (read_line hcomments hlines hline hblank htakes)
      rw [← Option.some.inj htext, check, String.toList_ofList, all_splitOn_append hline,
        Bool.and_eq_true] at hcheck
      exact hcheck.1
  · intro h source d rest hread
    obtain ⟨cs, rfl, -, htakes⟩ := read_eq_some hread
    have hcheck : c.check (String.ofList cs) = true := by
      rw [check, String.toList_ofList]
      exact all_splitOn_mono h htakes
    exact ⟨_, rfl, hcheck, if_pos hcheck⟩

/-- **Checking and reading agree** exactly for the starters of one character and those that no line
can begin with; what is read passes the check exactly if the starter has no blank inside, or no line
can begin with it. -/
theorem agreement (c : Comment) (hcomments : c.maxComments = none) (hlines : c.maxLines = none) :
    (c.Agrees ↔ (Opens c.starter.toList → c.starter.toList.length = 1)) ∧
      (c.ChecksRead ↔ (Opens c.starter.toList → ∀ x ∈ c.starter.toList, isBlank x = false)) :=
  ⟨(agrees_iff_lines hcomments hlines).trans forall_checkLine_iff_takesLine_iff,
    (checksRead_iff_lines hcomments hlines).trans forall_checkLine_of_takesLine_iff⟩

/-- The usual starter: a check and reading agree about a note behind blank lines. -/
theorem agreement_note :
    (template none none).Agrees ∧ (template none none).ChecksRead ∧
      (template none none).maxComments = none ∧ (template none none).maxLines = none ∧
      (template none none).check "\n  # note" = true ∧
      ∃ d, (template none none).read "\n  # note".toList = (some d, []) := by
  obtain ⟨hagrees, hread⟩ := agreement (template none none) rfl rfl
  have h : (template none none).Agrees := hagrees.mpr fun _ => rfl
  have hcheck : (template none none).check "\n  # note" = true := by decide +kernel
  have hblank : isBlankText "\n  # note".toList = false := by decide +kernel
  have hstarter : ∀ x ∈ (template none none).starter.toList, isBlank x = false := by
    intro x hx
    obtain rfl : x = '#' := List.mem_singleton.mp hx
    rfl
  refine ⟨h, hread.mpr fun _ => hstarter, rfl, rfl, hcheck, ?_⟩
  exact (h "\n  # note" hblank).mp hcheck

/-- **Starters of several characters** part them: with slashes a text is checked that is not read,
and with a blank a text is read that is not checked. -/
theorem check_read_differ :
    ((template none none).withStarter "//").check "/ / note" = true ∧
      ((template none none).withStarter "//").read "/ / note".toList =
        (none, "/ / note".toList) ∧
      ((template none none).withStarter "# ").check "# note" = false ∧
      ((template none none).withStarter "# ").read "# note".toList =
        (some { (template none none).withStarter "# " with text := some "# note\n" }, []) := by
  decide +kernel

end Comment

end Tabletop
