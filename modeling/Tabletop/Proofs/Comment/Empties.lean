import Tabletop.Comment.Layout
import Tabletop.Proofs.Text.Substitution

/-!
# Empty lines

The first rule of the layout replaces runs of empty lines. A run may begin within a line, at the fill
that ends it. What does the rule do to the lines of a text?

* Behind the empty lines ahead stands the text without them (`emptyLines_snd`). **The last line
  stays**, for no line feed ends it;
* a run is found behind every line that has two empty ones ahead, and another one behind those
  (`blankRuns_append`). One of them **is left**, and the line in front loses the fill at its end
  (`mergeEmpties`, `substitute_blankRuns`);
* a run is two adjacent empty lines between two others (`hasRun_eq_false_iff`). Lines that were merged
  have **none** (`hasRun_mergeEmpties`), and lines without one stay as they are
  (`mergeEmpties_eq_self`).
-/

namespace Tabletop.Comment

open Text

variable {cs rest line : List Char} {ls : List (List Char)}

/-- An empty line may contain fill. -/
def isEmptyLine (line : List Char) : Bool := line.all isFill

/-- Two empty lines stand ahead, and another line behind them. -/
def emptiesAhead : List (List Char) → Bool
  | first :: second :: _ :: _ => isEmptyLine first && isEmptyLine second
  | _ => false

theorem ne_nil_of_emptiesAhead (h : emptiesAhead ls = true) : ls ≠ [] := by
  rintro rfl
  cases h

/-- The lines without the empty ones ahead. The last line stays: no line feed ends it. -/
def dropEmpties : List (List Char) → List (List Char)
  | first :: second :: ls =>
    if isEmptyLine first then dropEmpties (second :: ls) else first :: second :: ls
  | ls => ls

/-- Dropping empty lines leaves no more than there were. -/
theorem length_dropEmpties_le (ls : List (List Char)) : (dropEmpties ls).length ≤ ls.length := by
  fun_induction dropEmpties ls with
  | case1 first second ls hempty ih => exact ih.trans (Nat.le_succ _)
  | case2 | case3 => exact Nat.le_refl _

/-- Behind a line, two and more empty lines become one; what is fill at the end of that line goes
with them. -/
def mergeEmpties : List (List Char) → List (List Char)
  | [] => []
  | line :: ls =>
    if emptiesAhead ls then upTo isEmptyLine line :: [] :: mergeEmpties (dropEmpties ls)
    else line :: mergeEmpties ls
termination_by ls => ls.length
decreasing_by
  · exact Nat.lt_succ_of_le (length_dropEmpties_le ls)
  · exact Nat.lt_succ_self _

/-- The last line is not ended, and does not count as an empty one. -/
theorem emptyLines_last (h : '\n' ∉ line) : emptyLines line = (0, line) := by
  rw [emptyLines]
  split
  · rename_i heq
    have hmem : '\n' ∈ line := (List.dropWhile_sublist (l := line) isFill).subset (by simp [heq])
    exact absurd hmem h
  · rfl

/-- An empty line that is ended counts. -/
theorem emptyLines_feed (h : isEmptyLine line = true) (rest : List Char) :
    emptyLines (line ++ '\n' :: rest) = ((emptyLines rest).1 + 1, (emptyLines rest).2) := by
  have hdrop : (line ++ '\n' :: rest).dropWhile isFill = '\n' :: rest :=
    (List.dropWhile_append_of_pos (List.all_eq_true.mp h)).trans
      (List.dropWhile_cons_of_neg (by decide))
  rw [emptyLines]
  split
  · rename_i heq
    rw [hdrop] at heq
    cases heq
    rfl
  · rename_i hne
    exact absurd hdrop (hne rest)

/-- A line with something visible in it ends the empty ones. -/
theorem emptyLines_visible (h : isEmptyLine line = false) (hline : '\n' ∉ line)
    (rest : List Char) : emptyLines (line ++ rest) = (0, line ++ rest) := by
  have hne : line.dropWhile isFill ≠ [] := by
    rw [ne_eq, List.dropWhile_eq_nil_iff, ← List.all_eq_true]
    exact Bool.eq_false_iff.mp h
  have hdrop : (line ++ rest).dropWhile isFill = line.dropWhile isFill ++ rest :=
    List.dropWhile_append.trans (if_neg fun hempty => hne (List.isEmpty_iff.mp hempty))
  rw [emptyLines]
  split
  · rename_i heq
    obtain ⟨c, cs, hcs⟩ := List.exists_cons_of_ne_nil hne
    rw [hdrop, hcs, List.cons_append, List.cons.injEq] at heq
    have hmem : '\n' ∈ line :=
      (List.dropWhile_sublist (l := line) isFill).subset (by simp [hcs, heq.1])
    exact absurd hmem hline
  · rfl

/-- What stands behind the empty lines ahead. -/
theorem emptyLines_snd (h : AreLines ls) : (emptyLines (ofLines ls)).2 = ofLines (dropEmpties ls) := by
  fun_induction dropEmpties ls with
  | case1 first second ls hempty ih =>
    rw [ofLines_cons, behindFeeds_cons, emptyLines_feed hempty, ih fun line hline =>
      h line (List.mem_cons_of_mem first hline)]
  | case2 first second ls hempty =>
    rw [ofLines_cons,
      emptyLines_visible (Bool.eq_false_iff.mpr hempty) (h first List.mem_cons_self)]
  | case3 ls hls =>
    match ls, hls with
    | [], _ => rw [ofLines, emptyLines_last List.not_mem_nil]
    | [line], _ => rw [ofLines_singleton, emptyLines_last (h line List.mem_cons_self)]
    | first :: second :: ls, hls => exact (hls first second ls rfl).elim

/-- How many empty lines are ahead, line by line. -/
theorem emptyLines_cons_fst (hline : '\n' ∉ line) (ls : List (List Char)) :
    (emptyLines (line ++ behindFeeds ls)).1 =
      if isEmptyLine line && !ls.isEmpty then (emptyLines (ofLines ls)).1 + 1 else 0 := by
  cases hempty : isEmptyLine line with
  | false => rw [emptyLines_visible hempty hline]; rfl
  | true =>
    cases ls with
    | nil => rw [behindFeeds_nil, List.append_nil, emptyLines_last hline]; rfl
    | cons next ls => rw [behindFeeds_cons, emptyLines_feed hempty]; rfl

/-- **The rule for empty lines** finds something exactly if two of them are ahead, and another line
behind. -/
theorem two_le_emptyLines_iff (h : AreLines ls) :
    2 ≤ (emptyLines (ofLines ls)).1 ↔ emptiesAhead ls = true := by
  match ls with
  | [] =>
    rw [ofLines, emptyLines_last List.not_mem_nil]
    exact iff_of_false (by decide) (by decide)
  | [first] =>
    rw [ofLines_cons, emptyLines_cons_fst (h first (by simp))]
    simp [emptiesAhead]
  | first :: second :: ls =>
    rw [ofLines_cons, emptyLines_cons_fst (h first (by simp)), ofLines_cons,
      emptyLines_cons_fst (h second (by simp))]
    cases hfirst : isEmptyLine first <;> cases hsecond : isEmptyLine second <;> cases ls <;>
      simp [emptiesAhead, hfirst, hsecond]

/-- **Where a run of empty lines is found**: at what is an empty line of its own, or the empty end
of another one. -/
theorem blankRuns_append (b : Bool) (hline : '\n' ∉ line) (h : AreLines ls) :
    blankRuns b (line ++ behindFeeds ls) =
      if isEmptyLine line && emptiesAhead ls then
        some (['\n', '\n'], (line ++ behindFeeds ls).length - (ofLines (dropEmpties ls)).length)
      else none := by
  have htwo := two_le_emptyLines_iff h
  cases hempty : isEmptyLine line with
  | false =>
    rw [blankRuns, emptyLines_visible hempty hline]
    rfl
  | true =>
    cases ls with
    | nil =>
      rw [behindFeeds_nil, List.append_nil, blankRuns, emptyLines_last hline]
      rfl
    | cons next ls =>
      rw [behindFeeds_cons, blankRuns, emptyLines_feed hempty, emptyLines_snd h, Bool.true_and]
      cases hruns : emptiesAhead (next :: ls) with
      | true =>
        have hle := htwo.mpr hruns
        exact if_pos (by omega)
      | false =>
        have hlt : ¬ 2 ≤ (emptyLines (ofLines (next :: ls))).1 := by rw [htwo, hruns]; simp
        exact if_neg (by omega)

/-- The lines that are left are the last ones. -/
theorem dropEmpties_suffix (ls : List (List Char)) : dropEmpties ls <:+ ls := by
  fun_induction dropEmpties ls with
  | case1 first second ls hempty ih => exact ih.trans (List.suffix_cons first _)
  | case2 | case3 => exact List.suffix_refl _

theorem dropEmpties_ne_nil (h : ls ≠ []) : dropEmpties ls ≠ [] := by
  fun_induction dropEmpties ls with
  | case1 first second ls hempty ih => exact ih (List.cons_ne_nil second ls)
  | case2 | case3 => exact h

theorem mergeEmpties_ne_nil (h : ls ≠ []) : mergeEmpties ls ≠ [] := by
  obtain ⟨line, ls, rfl⟩ := List.exists_cons_of_ne_nil h
  rw [mergeEmpties]
  split <;> exact List.cons_ne_nil _ _

/-- A line in front of a run is cut where it has nothing but fill, and the run is replaced. -/
theorem substituteFrom_blankRuns_of_ahead (hline : '\n' ∉ line) (h : AreLines ls)
    (hruns : emptiesAhead ls = true) :
    substituteFrom blankRuns false (line ++ behindFeeds ls) =
      upTo isEmptyLine line ++ '\n' :: '\n' ::
        substituteFrom blankRuns false (ofLines (dropEmpties ls)) := by
  have hne := ne_nil_of_emptiesAhead hruns
  have hbehind : ofLines (dropEmpties ls) <:+ ofLines ls :=
    ofLines_suffix (dropEmpties_suffix ls) (dropEmpties_ne_nil hne)
  have hfits : ∀ t, t <:+ line → blankRuns false (t ++ behindFeeds ls) =
      if isEmptyLine t then
        some (['\n', '\n'], (t ++ behindFeeds ls).length - (ofLines (dropEmpties ls)).length)
      else none := by
    intro t ht
    rw [blankRuns_append false (fun hmem => hline (ht.subset hmem)) h, hruns, Bool.and_true]
  have hfeed := hfits [] List.nil_suffix
  rw [List.nil_append, behindFeeds_of_ne_nil hne] at hfeed
  rw [substituteFrom_line (p := isEmptyLine)
      (by rw [behindFeeds_of_ne_nil hne]; exact hbehind.trans (List.suffix_cons _ _))
      fun c t ht => hfits (c :: t) ht,
    behindFeeds_of_ne_nil hne, substituteFrom_of_some hfeed hbehind]
  -- if the line has no fill at its end, the run is found at its line feed
  split_ifs with hcut
  · rw [hcut]; rfl
  · rw [List.append_assoc]; rfl

/-- The rule for empty lines, applied to the text of lines, merges empty lines. -/
theorem substituteFrom_blankRuns (h : AreLines ls) :
    substituteFrom blankRuns false (ofLines ls) = ofLines (mergeEmpties ls) := by
  fun_induction mergeEmpties ls with
  | case1 => rw [ofLines, substituteFrom]
  | case2 line ls hruns ih =>
    obtain ⟨hline, hls⟩ := List.forall_mem_cons.mp h
    have hne := ne_nil_of_emptiesAhead hruns
    rw [ofLines_cons, substituteFrom_blankRuns_of_ahead hline hls hruns,
      ih (AreLines.of_suffix hls (dropEmpties_suffix ls)), ofLines_cons, behindFeeds_cons,
      ofLines_cons, behindFeeds_of_ne_nil (mergeEmpties_ne_nil (dropEmpties_ne_nil hne))]
    rfl
  | case3 line ls hruns ih =>
    obtain ⟨hline, hls⟩ := List.forall_mem_cons.mp h
    have hnone : ∀ t, t <:+ line → blankRuns false (t ++ behindFeeds ls) = none := by
      intro t ht
      rw [blankRuns_append false (fun hmem => hline (ht.subset hmem)) hls,
        Bool.eq_false_iff.mpr hruns, Bool.and_false]
      rfl
    rw [ofLines_cons, substituteFrom_append fun c t ht => hnone (c :: t) ht, ofLines_cons]
    cases ls with
    | nil => rw [behindFeeds_nil, substituteFrom, mergeEmpties]; rfl
    | cons next ls =>
      have hfeed := hnone [] List.nil_suffix
      rw [List.nil_append, behindFeeds_cons] at hfeed
      rw [behindFeeds_cons, substituteFrom_of_none hfeed, ih hls,
        behindFeeds_of_ne_nil (mergeEmpties_ne_nil (List.cons_ne_nil next ls))]

theorem areLines_mergeEmpties (h : AreLines ls) : AreLines (mergeEmpties ls) := by
  fun_induction mergeEmpties ls with
  | case1 => exact h
  | case2 line ls hruns ih =>
    obtain ⟨hline, hls⟩ := List.forall_mem_cons.mp h
    have hcut : '\n' ∉ upTo isEmptyLine line := fun hmem =>
      hline ((upTo_isPrefix isEmptyLine line).subset hmem)
    exact List.forall_mem_cons.mpr ⟨hcut, List.forall_mem_cons.mpr
      ⟨List.not_mem_nil, ih (AreLines.of_suffix hls (dropEmpties_suffix ls))⟩⟩
  | case3 line ls hruns ih =>
    obtain ⟨hline, hls⟩ := List.forall_mem_cons.mp h
    exact List.forall_mem_cons.mpr ⟨hline, ih hls⟩

/-- **Empty lines** are merged. -/
theorem substitute_blankRuns (h : AreLines ls) :
    substitute blankRuns (ofLines ls) = ofLines (mergeEmpties ls) := by
  rw [substitute_eq_false fun _ => rfl, substituteFrom_blankRuns h]

/-! ## Runs -/

/-- Somewhere behind a line, two empty lines and another one follow. -/
def hasRun : List (List Char) → Bool
  | [] => false
  | _ :: ls => emptiesAhead ls || hasRun ls

/-- A run is two adjacent empty lines between two others. -/
theorem hasRun_eq_false_iff : hasRun ls = false ↔
    ∀ a b c d, [a, b, c, d] <:+: ls → isEmptyLine b = true → isEmptyLine c = false := by
  induction ls with
  | nil =>
    refine iff_of_true rfl fun a b c d h => ?_
    cases List.eq_nil_of_infix_nil h
  | cons line ls ih =>
    rw [hasRun, Bool.or_eq_false_iff, ih]
    constructor
    · rintro ⟨hahead, hls⟩ a b c d h hb
      rcases List.infix_cons_iff.mp h with h | h
      · obtain ⟨more, heq⟩ := h
        obtain ⟨-, rfl⟩ := List.cons.inj heq
        simpa [emptiesAhead, hb] using hahead
      · exact hls a b c d h hb
    · intro h
      refine ⟨?_, fun a b c d hwithin => h a b c d (List.infix_cons_iff.mpr (.inr hwithin))⟩
      match ls with
      | [] | [_] | [_, _] => rfl
      | b :: c :: d :: more =>
        have hfront : [line, b, c, d] <+: line :: b :: c :: d :: more := ⟨more, rfl⟩
        have hbc := h line b c d hfront.isInfix
        rw [emptiesAhead]
        cases hb : isEmptyLine b with
        | false => rfl
        | true => exact hbc hb

/-- Without a run of empty lines nothing is merged. -/
theorem mergeEmpties_eq_self (h : hasRun ls = false) : mergeEmpties ls = ls := by
  induction ls with
  | nil => rw [mergeEmpties]
  | cons line ls ih =>
    obtain ⟨hahead, hls⟩ := Bool.or_eq_false_iff.mp h
    rw [mergeEmpties, hahead, if_neg Bool.false_ne_true, ih hls]

/-- A line with something visible in it keeps that when its fill is cut off. -/
theorem isEmptyLine_upTo (h : isEmptyLine line = false) :
    isEmptyLine (upTo isEmptyLine line) = false := by
  obtain ⟨t, heq, ht⟩ := exists_eq_upTo_append isEmptyLine line
  have hline : isEmptyLine line = (isEmptyLine (upTo isEmptyLine line) && isEmptyLine t) := by
    conv => lhs; rw [heq]
    exact List.all_append
  have ht : isEmptyLine t = true := by
    rcases ht with rfl | ht
    · rfl
    · exact ht
  rwa [h, ht, Bool.and_true, eq_comm] at hline

theorem emptiesAhead_of_visible (h : isEmptyLine line = false) (ls : List (List Char)) :
    emptiesAhead (line :: ls) = false := by
  match ls with
  | [] | [_] => rfl
  | _ :: _ :: _ => rw [emptiesAhead, h, Bool.false_and]

theorem emptiesAhead_cons_of_visible (first : List Char) (h : isEmptyLine line = false)
    (ls : List (List Char)) : emptiesAhead (first :: line :: ls) = false := by
  cases ls with
  | nil => rfl
  | cons _ _ => rw [emptiesAhead, h, Bool.and_false]

/-- Merged, lines begin as they did, but for fill at the end of the first one. -/
theorem exists_mergeEmpties_eq_cons (h : isEmptyLine line = false) (ls : List (List Char)) :
    ∃ first more, mergeEmpties (line :: ls) = first :: more ∧ isEmptyLine first = false := by
  rw [mergeEmpties]
  split
  · exact ⟨_, _, rfl, isEmptyLine_upTo h⟩
  · exact ⟨_, _, rfl, h⟩

/-- Behind dropped lines stands the last line, or one with something visible in it. -/
theorem dropEmpties_cases (h : ls ≠ []) :
    (∃ last, dropEmpties ls = [last]) ∨
      ∃ first more, dropEmpties ls = first :: more ∧ isEmptyLine first = false := by
  fun_induction dropEmpties ls with
  | case1 first second ls hempty ih => exact ih (List.cons_ne_nil second ls)
  | case2 first second ls hempty =>
    exact .inr ⟨first, second :: ls, rfl, Bool.eq_false_iff.mpr hempty⟩
  | case3 ls hls =>
    match ls, h, hls with
    | [last], _, _ => exact .inl ⟨last, rfl⟩
    | first :: second :: ls, _, hls => exact (hls first second ls rfl).elim

/-- Behind the one empty line that is left of a run, no other one follows. -/
theorem emptiesAhead_mergeEmpties_dropEmpties (h : ls ≠ []) :
    emptiesAhead ([] :: mergeEmpties (dropEmpties ls)) = false ∧
      emptiesAhead (mergeEmpties (dropEmpties ls)) = false := by
  obtain ⟨last, hlast⟩ | ⟨first, more, hfirst, hvisible⟩ := dropEmpties_cases h
  · rw [hlast, mergeEmpties_eq_self rfl]
    exact ⟨rfl, rfl⟩
  · obtain ⟨head, tail, heq, hhead⟩ := exists_mergeEmpties_eq_cons hvisible more
    rw [hfirst, heq]
    exact ⟨emptiesAhead_cons_of_visible [] hhead tail, emptiesAhead_of_visible hhead tail⟩

/-- Merging leaves no run of empty lines ahead where there was none. -/
theorem emptiesAhead_mergeEmpties (h : emptiesAhead ls = false) :
    emptiesAhead (mergeEmpties ls) = false := by
  match ls with
  | [] | [_] | [_, _] =>
    rw [mergeEmpties_eq_self rfl]
    rfl
  | first :: second :: third :: ls =>
    cases hfirst : isEmptyLine first with
    | false =>
      obtain ⟨head, tail, heq, hhead⟩ := exists_mergeEmpties_eq_cons hfirst (second :: third :: ls)
      rw [heq, emptiesAhead_of_visible hhead]
    | true =>
      rw [emptiesAhead, hfirst, Bool.true_and] at h
      obtain ⟨head, tail, heq, hhead⟩ := exists_mergeEmpties_eq_cons h (third :: ls)
      rw [mergeEmpties, emptiesAhead_of_visible h, if_neg Bool.false_ne_true, heq,
        emptiesAhead_cons_of_visible first hhead]

/-- **Merged once**, empty lines need not be merged again. -/
theorem hasRun_mergeEmpties (ls : List (List Char)) : hasRun (mergeEmpties ls) = false := by
  fun_induction mergeEmpties ls with
  | case1 => rfl
  | case2 line ls hruns ih =>
    have hne := ne_nil_of_emptiesAhead hruns
    obtain ⟨hbehind, hahead⟩ := emptiesAhead_mergeEmpties_dropEmpties hne
    rw [hasRun, hasRun, hbehind, hahead, ih]
    rfl
  | case3 line ls hruns ih =>
    rw [hasRun, emptiesAhead_mergeEmpties (Bool.eq_false_iff.mpr hruns), ih]
    rfl

/-- A line that is left is an empty one, or one of before without fill at its end. -/
theorem mem_mergeEmpties (h : line ∈ mergeEmpties ls) :
    line = [] ∨ ∃ fill, isEmptyLine fill = true ∧ line ++ fill ∈ ls := by
  fun_induction mergeEmpties ls with
  | case1 => cases h
  | case2 first ls hruns ih =>
    rcases List.mem_cons.mp h with rfl | h
    · obtain ⟨t, heq, ht⟩ := exists_eq_upTo_append isEmptyLine first
      refine .inr ⟨t, ?_, heq ▸ List.mem_cons_self⟩
      rcases ht with rfl | ht
      · rfl
      · exact ht
    rcases List.mem_cons.mp h with rfl | h
    · exact .inl rfl
    · obtain hnil | ⟨fill, hfill, hmem⟩ := ih h
      · exact .inl hnil
      · exact .inr ⟨fill, hfill, List.mem_cons_of_mem _ ((dropEmpties_suffix ls).subset hmem)⟩
  | case3 first ls hruns ih =>
    rcases List.mem_cons.mp h with rfl | h
    · exact .inr ⟨[], rfl, by simp⟩
    · obtain hnil | ⟨fill, hfill, hmem⟩ := ih h
      · exact .inl hnil
      · exact .inr ⟨fill, hfill, List.mem_cons_of_mem _ hmem⟩

end Tabletop.Comment
