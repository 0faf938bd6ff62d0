import Tabletop.Cursor
import Tabletop.Proofs.Comment.Agreement
import Tabletop.Proofs.Text.Place

/-!
# What reading a comment takes

Reading goes on from line to line, and counts down a limit with every comment line and another one
with the first blank line behind some. What it takes off a text is told by the lines taken:

* **TakesLines** says that they are whole lines of the text, blank or behind the starter, that the
  text read is made of them with the blank ones **emptied**, and that both limits are kept. A limit
  on blocks counts **runs** of comment lines. One line more keeps this (`TakesLines.blank`,
  `TakesLines.comment`), so it holds of all that is read (`takesLines_readLines`);
* what was read **is read again** as it is, with the same limits (`readLines_readLines`). This and
  what the lines tell are together what a comment is that was read (`read_exact`);
* if nothing but blank lines was taken there is no comment. They are not given back, so the place
  is kept **exactly if there is no blank line** to start with, or a limit is zero
  (`read_restores_iff`).
-/

namespace Tabletop

open Text

namespace Comment

/-! ## Lines and runs -/

/-- A line as it is read: a blank one counts as empty. -/
def emptied (line : List Char) : List Char := if isBlankText line then [] else line

/-- How many of some lines are comment lines. -/
def commentLines (ls : List (List Char)) : ℕ := ls.countP fun line => !isBlankText line

/-- The runs of comment lines among some lines: what blank lines divide. -/
def runs (ls : List (List Char)) : List (List (List Char)) :=
  (ls.splitOnP isBlankText).filter fun run => !run.isEmpty

/-- How many runs there are, with the one that is under way in front of the lines, if any. -/
def runsBehind (inComment : Bool) (ls : List (List Char)) : ℕ :=
  if inComment then ((ls.splitOnP isBlankText).tail.filter fun run => !run.isEmpty).length + 1
  else (runs ls).length

/-- Whether a run is under way behind some lines: whether the last one is a comment line. -/
def underWay (inComment : Bool) (ls : List (List Char)) : Bool :=
  (ls.getLast?.map fun line => !isBlankText line).getD inComment

variable {line : List Char} {ls : List (List Char)}

theorem isBlankText_emptied (line : List Char) : isBlankText (emptied line) = isBlankText line := by
  unfold emptied
  split
  · rename_i h
    exact h.symm
  · rfl

/-- A comment line is read as it is. -/
theorem emptied_comment (h : isBlankText line = false) : emptied line = line := by
  rw [emptied, h, if_neg Bool.false_ne_true]

theorem notMem_emptied (h : '\n' ∉ line) : '\n' ∉ emptied line := by
  unfold emptied
  split
  · exact List.not_mem_nil
  · exact h

theorem commentLines_blank (h : isBlankText line = true) (ls : List (List Char)) :
    commentLines (line :: ls) = commentLines ls :=
  List.countP_cons_of_neg (by simp [h])

theorem commentLines_comment (h : isBlankText line = false) (ls : List (List Char)) :
    commentLines (line :: ls) = commentLines ls + 1 :=
  List.countP_cons_of_pos (by simp [h])

theorem runsBehind_nil (inComment : Bool) :
    runsBehind inComment [] = if inComment then 1 else 0 := by
  cases inComment <;> rfl

/-- A blank line ends the run that is under way. -/
theorem runsBehind_blank (h : isBlankText line = true) (inComment : Bool) (ls : List (List Char)) :
    runsBehind inComment (line :: ls) = runsBehind false ls + if inComment then 1 else 0 := by
  rw [runsBehind, runsBehind, runs, runs, List.splitOnP_cons_eq_if_modifyHead, if_pos h]
  cases inComment <;> rfl

/-- A comment line is part of the run that is under way, or begins one. -/
theorem runsBehind_comment (h : isBlankText line = false) (inComment : Bool)
    (ls : List (List Char)) : runsBehind inComment (line :: ls) = runsBehind true ls := by
  obtain ⟨run, more, hsplit⟩ := List.exists_cons_of_ne_nil (List.splitOnP_ne_nil isBlankText ls)
  rw [runsBehind, runsBehind, runs, List.splitOnP_cons_eq_if_modifyHead, h,
    if_neg Bool.false_ne_true, hsplit]
  cases inComment <;> rfl

/-- The first line decides whether a run is under way behind it. -/
theorem underWay_cons (inComment : Bool) (line : List Char) (ls : List (List Char)) :
    underWay inComment (line :: ls) = underWay (!isBlankText line) ls := by
  cases ls with
  | nil => rfl
  | cons next ls =>
    rw [underWay, underWay, List.getLast?_cons_cons,
      List.getLast?_eq_some_getLast (List.cons_ne_nil next ls)]
    rfl

/-! ## What is taken off -/

/-- **Taking lines** off a text, within limits of runs and of comment lines, and with a run under
way or not: what is taken, what is left, and the text that is read. -/
structure TakesLines (starter : List Char) (maxRuns maxLines : Option ℕ) (inComment : Bool)
    (source taken rest read : List Char) : Prop where
  source_eq : source = taken ++ rest
  /-- the text is parted between two lines -/
  lines_eq : lines source = lines taken ++ lines rest
  read_eq : read = joined ((lines taken).map emptied)
  takes : ∀ line ∈ lines taken, takesLine starter line = true
  runs_le : ∀ n ∈ maxRuns, runsBehind inComment (lines taken) ≤ n
  lines_le : ∀ n ∈ maxLines, commentLines (lines taken) ≤ n
  /-- at the end, at a limit, or in front of another line -/
  stops : rest = [] ∨
    (maxRuns = some (runsBehind inComment (lines taken)) ∧
      underWay inComment (lines taken) = false) ∨
    maxLines = some (commentLines (lines taken)) ∨
    ∃ line ∈ (lines rest).head?, takesLine starter line = false

namespace TakesLines

variable {starter : List Char} {maxRuns maxLines : Option ℕ} {inComment : Bool}
  {source taken rest read : List Char} {c : Char} {cs : List Char}

/-- Where reading stops at once, nothing is taken. A run that is under way is within its limit. -/
theorem nothing (hrun : inComment = true → maxRuns ≠ some 0)
    (hstops : source = [] ∨ maxRuns = some 0 ∨ maxLines = some 0 ∨
      ∃ line ∈ (lines source).head?, takesLine starter line = false) :
    TakesLines starter maxRuns maxLines inComment source [] source [] := by
  refine ⟨rfl, by rw [lines_nil, List.nil_append], by rw [lines_nil]; rfl, ?_, ?_, ?_, ?_⟩
  · rw [lines_nil]
    exact List.forall_mem_nil _
  · rintro n rfl
    rw [lines_nil, runsBehind_nil]
    cases inComment with
    | false => exact Nat.zero_le n
    | true => exact Nat.one_le_iff_ne_zero.mpr fun hn => hrun rfl (congrArg some hn)
  · intro n _
    rw [lines_nil]
    exact Nat.zero_le n
  · rw [lines_nil, runsBehind_nil]
    rcases hstops with h | h | h | h
    · exact .inl h
    · cases inComment with
      | false => exact .inr (.inl ⟨h, rfl⟩)
      | true => exact absurd h (hrun rfl)
    · exact .inr (.inr (.inl h))
    · exact .inr (.inr (.inr h))

/-- **A blank line** is emptied, and a run that was under way counts. -/
theorem blank (hline : isBlankText (splitLine (c :: cs)).1 = true) (hmax : maxRuns ≠ some 0)
    (h : TakesLines starter (if inComment then maxRuns.map (· - 1) else maxRuns) maxLines false
      (splitLine (c :: cs)).2 taken rest read) :
    ∃ more, TakesLines starter maxRuns maxLines inComment (c :: cs) more rest ('\n' :: read) := by
  obtain ⟨more, hsource, hmore⟩ := exists_append_of_splitLine h.source_eq
  refine ⟨more, hsource, ?_, ?_, ?_, ?_, ?_, ?_⟩
  · rw [lines_cons, h.lines_eq, hmore, List.cons_append]
  · rw [hmore, List.map_cons, joined_cons, emptied, if_pos hline, List.nil_append, h.read_eq]
  · rw [hmore]
    exact List.forall_mem_cons.mpr ⟨by rw [takesLine, hline, Bool.true_or], h.takes⟩
  · rintro n rfl
    rw [hmore, runsBehind_blank hline]
    have hruns := h.runs_le
    have hn : n ≠ 0 := fun hn => hmax (congrArg some hn)
    cases inComment with
    | false => exact hruns n rfl
    | true =>
      have hle := hruns (n - 1) rfl
      simp only [if_true]
      omega
  · rw [hmore, commentLines_blank hline]
    exact h.lines_le
  · rw [hmore, runsBehind_blank hline, commentLines_blank hline, underWay_cons, hline]
    rcases h.stops with hs | ⟨hs, hended⟩ | hs | hs
    · exact .inl hs
    · refine .inr (.inl ⟨?_, hended⟩)
      cases inComment with
      | false => exact hs
      | true =>
        obtain ⟨n, rfl, hn⟩ := Option.map_eq_some_iff.mp hs
        have hpos : n ≠ 0 := fun hn => hmax (congrArg some hn)
        simp only [if_true, Option.some.injEq]
        omega
    · exact .inr (.inr (.inl hs))
    · exact .inr (.inr (.inr hs))

/-- **A comment line** is kept, and counts. -/
theorem comment (hline : isBlankText (splitLine (c :: cs)).1 = false)
    (hstart : starter.isPrefixOf (trim (splitLine (c :: cs)).1) = true) (hmax : maxLines ≠ some 0)
    (h : TakesLines starter maxRuns (maxLines.map (· - 1)) true (splitLine (c :: cs)).2 taken rest
      read) :
    ∃ more, TakesLines starter maxRuns maxLines inComment (c :: cs) more rest
      ((splitLine (c :: cs)).1 ++ '\n' :: read) := by
  obtain ⟨more, hsource, hmore⟩ := exists_append_of_splitLine h.source_eq
  refine ⟨more, hsource, ?_, ?_, ?_, ?_, ?_, ?_⟩
  · rw [lines_cons, h.lines_eq, hmore, List.cons_append]
  · rw [hmore, List.map_cons, joined_cons, emptied_comment hline, h.read_eq]
  · rw [hmore]
    exact List.forall_mem_cons.mpr ⟨by rw [takesLine, hstart, Bool.or_true], h.takes⟩
  · rw [hmore, runsBehind_comment hline]
    exact h.runs_le
  · rintro n rfl
    have hle := h.lines_le (n - 1) rfl
    have hn : n ≠ 0 := fun hn => hmax (congrArg some hn)
    rw [hmore, commentLines_comment hline]
    omega
  · rw [hmore, runsBehind_comment hline, commentLines_comment hline, underWay_cons, hline]
    rcases h.stops with hs | hs | hs | hs
    · exact .inl hs
    · exact .inr (.inl hs)
    · obtain ⟨n, rfl, hn⟩ := Option.map_eq_some_iff.mp hs
      have hpos : n ≠ 0 := fun hn => hmax (congrArg some hn)
      refine .inr (.inr (.inl (congrArg some ?_)))
      omega
    · exact .inr (.inr (.inr hs))

end TakesLines

/-! ## Reading -/

/-- **Reading takes lines.** -/
theorem takesLines_readLines (starter : List Char) (maxRuns maxLines : Option ℕ) (inComment : Bool)
    (cs : List Char) (hrun : inComment = true → maxRuns ≠ some 0) :
    ∃ taken, TakesLines starter maxRuns maxLines inComment cs taken
      (readLines starter maxRuns maxLines inComment cs).2
      (readLines starter maxRuns maxLines inComment cs).1 := by
  fun_induction readLines starter maxRuns maxLines inComment cs with
  | case1 => exact ⟨[], .nothing hrun (.inl rfl)⟩
  | case2 maxRuns maxLines inComment c cs hlimit =>
    exact ⟨[], .nothing hrun (.inr (hlimit.imp_right .inl))⟩
  | case3 maxRuns maxLines inComment c cs hlimit line rest hline left read rest' hread ih =>
    obtain ⟨hmaxRuns, -⟩ := not_or.mp hlimit
    obtain ⟨taken, h⟩ := ih fun h => absurd h Bool.false_ne_true
    rw [hread] at h
    exact h.blank hline hmaxRuns
  | case4 maxRuns maxLines inComment c cs hlimit line rest hline hstart read rest' hread ih =>
    obtain ⟨hmaxRuns, hmaxLines⟩ := not_or.mp hlimit
    obtain ⟨taken, h⟩ := ih fun _ => hmaxRuns
    rw [hread] at h
    exact h.comment (Bool.eq_false_iff.mpr hline) hstart hmaxLines
  | case5 maxRuns maxLines inComment c cs hlimit line hline hstart =>
    refine ⟨[], .nothing hrun (.inr (.inr (.inr ⟨line, ?_, ?_⟩)))⟩
    · rw [lines_cons]
      rfl
    · rw [takesLine, Bool.eq_false_iff.mpr hline, Bool.eq_false_iff.mpr hstart]
      rfl

/-- One round of reading, for a text whose first line ends with a line feed. -/
theorem readLines_feed (starter : List Char) (maxRuns maxLines : Option ℕ) (inComment : Bool)
    {line : List Char} (hfeed : '\n' ∉ line) (rest : List Char) :
    readLines starter maxRuns maxLines inComment (line ++ '\n' :: rest) =
      if maxRuns = some 0 ∨ maxLines = some 0 then ([], line ++ '\n' :: rest)
      else if isBlankText line then
        let behind := readLines starter (if inComment then maxRuns.map (· - 1) else maxRuns)
          maxLines false rest
        ('\n' :: behind.1, behind.2)
      else if starter.isPrefixOf (trim line) then
        let behind := readLines starter maxRuns (maxLines.map (· - 1)) true rest
        (line ++ '\n' :: behind.1, behind.2)
      else ([], line ++ '\n' :: rest) := by
  have hsplit := splitLine_append hfeed rest
  cases line with
  | nil =>
    rw [List.nil_append] at hsplit ⊢
    rw [readLines, hsplit]
  | cons c cs =>
    rw [List.cons_append] at hsplit ⊢
    rw [readLines, hsplit]

/-- Nothing is read within a limit of zero. -/
theorem readLines_of_limit {starter : List Char} {maxRuns maxLines : Option ℕ} {inComment : Bool}
    (h : maxRuns = some 0 ∨ maxLines = some 0) (cs : List Char) :
    readLines starter maxRuns maxLines inComment cs = ([], cs) := by
  cases cs with
  | nil => rw [readLines]
  | cons c cs => rw [readLines, if_pos h]

/-- **What was read** is read again as it is. -/
theorem readLines_readLines (starter : List Char) (maxRuns maxLines : Option ℕ) (inComment : Bool)
    (cs : List Char) :
    readLines starter maxRuns maxLines inComment
      (readLines starter maxRuns maxLines inComment cs).1 =
      ((readLines starter maxRuns maxLines inComment cs).1, []) := by
  fun_induction readLines starter maxRuns maxLines inComment cs with
  | case1 | case2 | case5 => rw [readLines]
  | case3 maxRuns maxLines inComment c cs hlimit line rest hline left read rest' hread ih =>
    have hblank : isBlankText [] = true := rfl
    rw [hread] at ih
    have hagain : readLines starter (if inComment then maxRuns.map (· - 1) else maxRuns) maxLines
        false read = (read, []) := ih
    rw [← List.nil_append ('\n' :: read), readLines_feed _ _ _ _ List.not_mem_nil, if_neg hlimit,
      if_pos hblank, hagain]
    rfl
  | case4 maxRuns maxLines inComment c cs hlimit line rest hline hstart read rest' hread ih =>
    rw [hread] at ih
    rw [readLines_feed _ _ _ _ (notMem_splitLine (c :: cs)), if_neg hlimit, if_neg hline,
      if_pos hstart, ih]

/-! ## A comment that is read -/

/-- Blank lines part the others whether they are read as empty or not. -/
theorem splitOnP_map_emptied (ls : List (List Char)) :
    (ls.map emptied).splitOnP isBlankText = ls.splitOnP isBlankText := by
  induction ls with
  | nil => rfl
  | cons line ls ih =>
    rw [List.map_cons, List.splitOnP_cons_eq_if_modifyHead, List.splitOnP_cons_eq_if_modifyHead,
      isBlankText_emptied, ih]
    cases hline : isBlankText line with
    | true => rfl
    | false => rw [emptied_comment hline]

/-- Emptied or not, the lines have the same runs and as many comment lines. -/
theorem runs_map_emptied (ls : List (List Char)) : runs (ls.map emptied) = runs ls := by
  rw [runs, runs, splitOnP_map_emptied]

/-- Reading blank lines as empty changes no count. -/
theorem commentLines_map_emptied (ls : List (List Char)) :
    commentLines (ls.map emptied) = commentLines ls := by
  rw [commentLines, List.countP_map]
  exact List.countP_congr fun line _ => by simp [isBlankText_emptied]

theorem underWay_map_emptied (inComment : Bool) (ls : List (List Char)) :
    underWay inComment (ls.map emptied) = underWay inComment ls := by
  rw [underWay, underWay, List.getLast?_map, Option.map_map]
  congr 2
  funext line
  exact congrArg not (isBlankText_emptied line)

/-- A line that reading takes is blank, or begins with the starter. -/
theorem takesLine_iff {starter : List Char} :
    takesLine starter line = true ↔ (isBlankText line = false → starter <+: trim line) := by
  rw [takesLine, Bool.or_eq_true, List.isPrefixOf_iff_prefix]
  cases isBlankText line <;> simp

variable {c d : Comment} {source rest : List Char}

/-- Reading takes lines, and then asks whether there was more than blanks. -/
theorem exists_takesLines (hmax : c.maxComments ≠ some 0) (source : List Char) :
    ∃ taken text rest,
      TakesLines c.starter.toList c.maxComments c.maxLines false source taken rest text ∧
      readLines c.starter.toList c.maxComments c.maxLines false source = (text, rest) ∧
      c.read source = if isBlankText text then (none, rest)
        else (some { c with text := some (String.ofList text) }, rest) := by
  obtain ⟨taken, htakes⟩ := takesLines_readLines c.starter.toList c.maxComments c.maxLines false
    source fun h => absurd h Bool.false_ne_true
  exact ⟨taken, _, _, htakes, rfl, by rw [read, if_neg hmax]⟩

/-- **A comment that is read** is made of the lines taken off, in order: comment lines as they are,
and blank lines emptied, each with a line feed. It keeps the limits of its template. Reading stops at
the end of the text, at a limit, or in front of another line. The comment's own text is read as the
same comment. -/
theorem read_exact (h : c.read source = (some d, rest)) :
    ∃ taken text : List Char, d = { c with text := some (String.ofList text) } ∧
      source = taken ++ rest ∧ lines source = lines taken ++ lines rest ∧
      text = joined ((lines taken).map emptied) ∧ lines text = (lines taken).map emptied ∧
      (∀ line ∈ lines text, isBlankText line = false → c.starter.toList <+: trim line) ∧
      (∀ n ∈ c.maxLines, commentLines (lines text) ≤ n) ∧
      (∀ n ∈ c.maxComments, (runs (lines text)).length ≤ n) ∧
      (rest = [] ∨ c.maxLines = some (commentLines (lines text)) ∨
        (c.maxComments = some (runs (lines text)).length ∧ underWay false (lines text) = false) ∨
        ∃ line ∈ (lines rest).head?, isBlankText line = false ∧ ¬ c.starter.toList <+: trim line) ∧
      c.read text = (some d, []) := by
  by_cases hmax : c.maxComments = some 0
  · rw [read, if_pos hmax] at h
    cases h
  obtain ⟨taken, text, rest', htakes, hlines, hread⟩ := exists_takesLines hmax source
  rw [hread] at h
  split_ifs at h with hblank
  · cases h
  · obtain ⟨rfl, rfl⟩ : { c with text := some (String.ofList text) } = d ∧ rest' = rest := by
      simpa using h
    have htext : lines text = (lines taken).map emptied := by
      rw [htakes.read_eq]
      exact lines_joined (List.forall_mem_map.mpr fun line hline =>
        notMem_emptied (notMem_of_mem_lines hline))
    refine ⟨taken, text, rfl, htakes.source_eq, htakes.lines_eq, htakes.read_eq, htext, ?_, ?_, ?_,
      ?_, ?_⟩
    · rw [htext]
      refine List.forall_mem_map.mpr fun line hline hcomment => ?_
      rw [isBlankText_emptied] at hcomment
      rw [emptied_comment hcomment]
      exact takesLine_iff.mp (htakes.takes line hline) hcomment
    · rw [htext, commentLines_map_emptied]
      exact htakes.lines_le
    · rw [htext, runs_map_emptied]
      exact htakes.runs_le
    · rw [htext, commentLines_map_emptied, runs_map_emptied, underWay_map_emptied]
      rcases htakes.stops with hs | hs | hs | ⟨line, hline, hs⟩
      · exact .inl hs
      · exact .inr (.inr (.inl hs))
      · exact .inr (.inl hs)
      · refine .inr (.inr (.inr ⟨line, hline, ?_⟩))
        rwa [← Classical.not_imp, ← takesLine_iff, Bool.not_eq_true]
    · -- the lines are read again as they are, so there is again more than blanks
      have hagain := readLines_readLines c.starter.toList c.maxComments c.maxLines false source
      rw [hlines] at hagain
      rw [read, if_neg hmax, hagain]
      exact if_neg hblank

/-- Of three blocks the first two are read, with the blank lines between and behind them. -/
theorem read_exact_blocks :
    (template (some 2) none).read "# a\n \n  # b\n# c\n\t\n# d".toList =
        (some { template (some 2) none with text := some "# a\n\n  # b\n# c\n\n" }, "# d".toList) ∧
      (template (some 2) none).read "# a\n\n  # b\n# c\n\n".toList =
        (some { template (some 2) none with text := some "# a\n\n  # b\n# c\n\n" }, []) := by
  have hread : (template (some 2) none).read "# a\n \n  # b\n# c\n\t\n# d".toList =
      (some { template (some 2) none with text := some "# a\n\n  # b\n# c\n\n" },
        "# d".toList) := by
    decide +kernel
  obtain ⟨taken, text, hd, -, -, -, -, -, -, -, -, hagain⟩ := read_exact hread
  have htext : "# a\n\n  # b\n# c\n\n" = String.ofList text :=
    Option.some.inj (congrArg Comment.text hd)
  rw [← String.toList_ofList (l := text), ← htext] at hagain
  exact ⟨hread, hagain⟩

/-! ## No comment -/

theorem isBlankText_joined (ls : List (List Char)) :
    isBlankText (joined ls) = ls.all isBlankText := by
  induction ls with
  | nil => rfl
  | cons line ls ih =>
    rw [joined_cons, isBlankText_append, isBlankText_cons, ih, List.all_cons]
    rfl

theorem isBlankText_eq_lines (cs : List Char) : isBlankText cs = (lines cs).all isBlankText := by
  induction cs using lines_induction with
  | nil => rw [lines_nil]; rfl
  | cons c cs ih => rw [isBlankText_eq_splitLine, lines_cons, List.all_cons, ih]

/-- **Without a comment** only blanks were taken, and they are not given back: nothing was taken
exactly if a limit is zero, or the text does not start with a blank line. -/
theorem read_eq_none (h : c.read source = (none, rest)) :
    (∃ taken, source = taken ++ rest ∧ isBlankText taken = true) ∧
      (rest = source ↔ c.maxComments = some 0 ∨ c.maxLines = some 0 ∨
        ∀ line ∈ (lines source).head?, isBlankText line = false) := by
  by_cases hmax : c.maxComments = some 0
  · rw [read, if_pos hmax] at h
    obtain rfl : source = rest := (Prod.mk.inj h).2
    exact ⟨⟨[], rfl, rfl⟩, iff_of_true rfl (.inl hmax)⟩
  obtain ⟨taken, text, rest', htakes, hlines, hread⟩ := exists_takesLines hmax source
  rw [hread] at h
  split_ifs at h with hblank
  · obtain rfl : rest' = rest := (Prod.mk.inj h).2
    have hall : (lines taken).all isBlankText = true := by
      rw [htakes.read_eq, isBlankText_joined, List.all_map] at hblank
      rwa [show isBlankText ∘ emptied = isBlankText from funext isBlankText_emptied] at hblank
    refine ⟨⟨taken, htakes.source_eq, by rw [isBlankText_eq_lines, hall]⟩, ?_⟩
    constructor
    · -- nothing was taken, so reading stopped at once
      intro hrest
      obtain rfl : taken = [] := by
        have hsource := htakes.source_eq
        rw [hrest] at hsource
        exact List.self_eq_append_left.mp hsource
      have hstops := htakes.stops
      rw [lines_nil, hrest] at hstops
      rcases hstops with rfl | ⟨hs, -⟩ | hs | ⟨line, hline, hs⟩
      · rw [lines_nil]
        exact .inr (.inr fun line hline => absurd hline (Option.not_mem_none line))
      · exact .inl hs
      · exact .inr (.inl hs)
      · refine .inr (.inr fun first hfirst => ?_)
        obtain rfl : first = line := Option.mem_unique hfirst hline
        exact (Bool.or_eq_false_iff.mp hs).1
    · rintro (hs | hs | hs)
      · exact absurd hs hmax
      · rw [readLines_of_limit (.inr hs)] at hlines
        exact (Prod.mk.inj hlines).2.symm
      · -- a blank line that was taken would be the first one
        cases taken with
        | nil => exact htakes.source_eq.symm
        | cons x xs =>
          have hfirst : (splitLine (x :: xs)).1 ∈ (lines source).head? := by
            rw [htakes.lines_eq, lines_cons]
            rfl
          rw [lines_cons, List.all_cons, hs _ hfirst] at hall
          cases hall
  · cases h

/-- **A failed read restores the place** exactly if the text behind it does not start with a blank
line, or a limit is zero. The reader stands behind blanks, whatever it passed over. -/
theorem read_restores_iff (c : Comment) {text : List Char} {n : ℕ} (hn : IsBoundary text n)
    {behind : Cursor} (h : ((Cursor.ofText text).seek n).run c.read = (none, behind)) :
    (∃ taken, ((Cursor.ofText text).seek n).rest = taken ++ behind.rest ∧
      isBlankText taken = true ∧ behind.position = n + utf8Size taken) ∧
    (behind.position = n ↔ c.maxComments = some 0 ∨ c.maxLines = some 0 ∨
      ∀ line ∈ (lines ((Cursor.ofText text).seek n).rest).head?, isBlankText line = false) := by
  obtain ⟨before, after, rfl, rfl⟩ := hn
  obtain ⟨hnone, rfl⟩ := Prod.mk.inj h
  rw [Cursor.rest_seek] at hnone ⊢
  have hread : c.read after = (none, (c.read after).2) := Prod.ext hnone rfl
  obtain ⟨⟨taken, hsource, hblank⟩, hiff⟩ := read_eq_none hread
  generalize (c.read after).2 = rest at hsource hiff ⊢
  subst hsource
  have hposition : utf8Size (before ++ (taken ++ rest)) - utf8Size rest =
      utf8Size before + utf8Size taken := by
    rw [utf8Size_append, utf8Size_append]
    omega
  refine ⟨⟨taken, rfl, hblank, hposition⟩, ?_⟩
  rw [← hiff]
  change utf8Size (before ++ (taken ++ rest)) - utf8Size rest = utf8Size before ↔ _
  rw [hposition, Nat.add_eq_left]
  have hsize := length_le_utf8Size taken
  constructor
  · intro hzero
    rw [List.eq_nil_of_length_eq_zero (show taken.length = 0 by omega), List.nil_append]
  · intro hrest
    rw [List.self_eq_append_left.mp hrest]
    rfl

/-- Behind a comment a second one is looked for, and the blank lines between are not given back. -/
theorem read_restores_iff_twice :
    IsBoundary "# a\n\n \nguru".toList 4 ∧
      ((Cursor.ofText "# a\n\n \nguru".toList).seek 4).run (template none (some 1)).read =
        (none, ⟨"# a\n\n \nguru".toList, "guru".toList⟩) ∧
      (⟨"# a\n\n \nguru".toList, "guru".toList⟩ : Cursor).position ≠ 4 := by
  have hn : IsBoundary "# a\n\n \nguru".toList 4 :=
    ⟨"# a\n".toList, "\n \nguru".toList, by decide +kernel, by decide +kernel⟩
  have hread : (template none (some 1)).read ((Cursor.ofText "# a\n\n \nguru".toList).seek 4).rest =
      (none, "guru".toList) := by
    decide +kernel
  have hrun : ((Cursor.ofText "# a\n\n \nguru".toList).seek 4).run (template none (some 1)).read =
      (none, ⟨"# a\n\n \nguru".toList, "guru".toList⟩) := by
    rw [Cursor.run, hread]
    rfl
  refine ⟨hn, hrun, fun hkept => ?_⟩
  have hstart := (read_restores_iff (template none (some 1)) hn hrun).2.mp hkept
  exact absurd hstart (by decide +kernel)

/-- A word behind two blank lines is no comment, and the reader is left in front of the word. -/
theorem read_passes_blankLines :
    let start := (Cursor.ofText "\n\nguru".toList).seek 0
    (start.run (template none none).read).1 = none ∧ start.position = 0 ∧
      (start.run (template none none).read).2.position = 2 := by
  decide +kernel

end Comment

end Tabletop
