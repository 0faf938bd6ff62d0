import Tabletop.Proofs.Comment.StarterRule

/-!
# Rulers

Behind the starter, a line may have a ruler of dashes or of dots. What do the rules for them do to the
lines of a text, if the starter has no blank and is plain?

* A line with a ruler is gaps, the starter, six marks or more, and what stands behind them
  (`eq_of_behindRuler?`, `behindRuler?_lead`); the start of a line has no ruler that the line does not
  have (`behindRuler?_of_prefix`);
* rulers of dashes are shortened **line by line** (`shorten`, `substitute_longRulers`), and a short
  one is found no more (`behindRuler?_shorten`);
* a ruler of dots is replaced together with its line feed, so the next line is **passed over**
  (`shortDots`, `substitute_dottedRulers`);
* a text without rulers stays as it is, also if the starter is not plain
  (`substitute_longRulers_eq_self`, `substitute_dottedRulers_eq_self`).
-/

namespace Tabletop.Comment

open Text

variable {cs rest line : List Char} {ls : List (List Char)}

/-! ## Lines with a ruler -/

section Rulers

variable {starter : List Char} {mark : Char}

/-- What stands behind a ruler: six and more of a mark behind the starter of a line. -/
def behindRuler? (starter : List Char) (mark : Char) (line : List Char) : Option (List Char) :=
  (after? (String.ofList starter) (line.dropWhile isGap)).bind (sixOf? mark)

/-- Marks are counted within the line. -/
theorem sixOf?_append (hmark : mark ≠ '\n') (hrest : AtFeed rest) (cs : List Char) :
    sixOf? mark (cs ++ rest) = (sixOf? mark cs).map (· ++ rest) := by
  have hhead := hrest.head (p := fun c => decide (c = mark)) (decide_eq_false hmark.symm)
  rw [sixOf?, sixOf?, takeWhile_append_of_head hhead, dropWhile_append_of_head hhead]
  split <;> rfl

theorem takeWhile_isGap_append (hrest : AtFeed rest) (cs : List Char) :
    (cs ++ rest).takeWhile isGap = cs.takeWhile isGap :=
  takeWhile_append_of_head (hrest.head rfl) cs

/-- **A ruler is looked for within its line**: what follows the line stands behind it. -/
theorem behindRuler?_append (hstarter : '\n' ∉ starter) (hmark : mark ≠ '\n')
    (hrest : AtFeed rest) (line : List Char) :
    behindRuler? starter mark (line ++ rest) =
      (behindRuler? starter mark line).map (· ++ rest) := by
  rw [behindRuler?, behindRuler?, dropWhile_append_of_head (hrest.head rfl),
    after?_append (by rwa [String.toList_ofList]) hrest]
  cases after? (String.ofList starter) (line.dropWhile isGap) with
  | none => rfl
  | some text => exact sixOf?_append hmark hrest text

/-- Six marks in a row are found, and taken with all that follow. -/
theorem sixOf?_replicate {n : ℕ} (hrest : ∀ c ∈ rest.head?, c ≠ mark) :
    sixOf? mark (List.replicate n mark ++ rest) = if 6 ≤ n then some rest else none := by
  have hmarks : ∀ c ∈ List.replicate n mark, decide (c = mark) = true := fun c hc =>
    decide_eq_true (List.eq_of_mem_replicate hc)
  have hhead : ∀ c ∈ rest.head?, decide (c = mark) = false := fun c hc =>
    decide_eq_false (hrest c hc)
  rw [sixOf?, takeWhile_append_of_head hhead, List.takeWhile_eq_self_iff.mpr hmarks,
    List.length_replicate, dropWhile_append_of_head hhead, List.dropWhile_eq_nil_iff.mpr hmarks,
    List.nil_append]

/-- What is found are at least six marks, and all of them. -/
theorem sixOf?_eq_some_iff : sixOf? mark cs = some rest ↔
    (∀ c ∈ rest.head?, c ≠ mark) ∧ ∃ n, 6 ≤ n ∧ cs = List.replicate n mark ++ rest := by
  constructor
  · intro h
    rw [sixOf?] at h
    split_ifs at h with hsix
    obtain rfl := Option.some.inj h
    have hmarks : cs.takeWhile (fun c => decide (c = mark)) =
        List.replicate (cs.takeWhile fun c => decide (c = mark)).length mark :=
      List.eq_replicate_iff.mpr ⟨rfl, fun c hc => by simpa using List.mem_takeWhile_imp hc⟩
    refine ⟨fun c hc => ?_, _, hsix, ?_⟩
    · have hhead := List.head?_dropWhile_not (fun c => decide (c = mark)) cs
      rw [Option.mem_def.mp hc] at hhead
      simpa using hhead
    · rw [← hmarks, List.takeWhile_append_dropWhile]
  · rintro ⟨hrest, n, hn, rfl⟩
    rw [sixOf?_replicate hrest, if_pos hn]

/-- **A line with a ruler**: gaps, the starter, the ruler and what stands behind it. -/
theorem eq_of_behindRuler? (h : behindRuler? starter mark line = some rest) :
    ∃ n, 6 ≤ n ∧
      line = line.takeWhile isGap ++ starter ++ List.replicate n mark ++ rest := by
  obtain ⟨text, htext, hsix⟩ := Option.bind_eq_some_iff.mp h
  rw [after?_eq_some_iff, String.toList_ofList] at htext
  obtain ⟨-, n, hn, rfl⟩ := sixOf?_eq_some_iff.mp hsix
  refine ⟨n, hn, ?_⟩
  rw [List.append_assoc, List.append_assoc, ← htext, List.takeWhile_append_dropWhile]

theorem behindRuler?_suffix (h : behindRuler? starter mark line = some rest) : rest <:+ line := by
  obtain ⟨n, -, heq⟩ := eq_of_behindRuler? h
  exact ⟨_, heq.symm⟩

/-- Behind a ruler its mark does not go on. -/
theorem head_of_behindRuler? (h : behindRuler? starter mark line = some rest) :
    ∀ c ∈ rest.head?, c ≠ mark := by
  obtain ⟨text, -, hsix⟩ := Option.bind_eq_some_iff.mp h
  exact (sixOf?_eq_some_iff.mp hsix).1

theorem behindRuler?_nil (starter : List Char) (mark : Char) : behindRuler? starter mark [] = none := by
  cases h : behindRuler? starter mark [] with
  | none => rfl
  | some rest =>
    obtain ⟨n, hn, heq⟩ := eq_of_behindRuler? h
    have hlength := congrArg List.length heq
    simp only [List.length_append, List.length_replicate, List.length_nil] at hlength
    omega

section Solid

variable {gap text : List Char} (hsolid : ∀ c ∈ starter, isBlank c = false)
  (hmark : isGap mark = false)
include hsolid

/-- What is asked behind gaps and the starter. -/
theorem behindRuler?_lead (hgap : ∀ c ∈ gap, isGap c = true)
    (htext : ∀ c ∈ text.head?, isGap c = false) :
    behindRuler? starter mark (gap ++ starter ++ text) = sixOf? mark text := by
  have hdrop : (gap ++ starter ++ text).dropWhile isGap = starter ++ text := by
    rw [List.append_assoc, List.dropWhile_append_of_pos hgap]
    cases starter with
    | nil =>
      cases text with
      | nil => rfl
      | cons c text => exact List.dropWhile_cons_of_neg (by simp [htext c rfl])
    | cons c cs =>
      have hc := isGap_of_visible (hsolid c List.mem_cons_self)
      exact List.dropWhile_cons_of_neg (by simp [hc])
  have hafter : after? (String.ofList starter) (starter ++ text) = some text := by
    rw [after?_eq_some_iff, String.toList_ofList]
  rw [behindRuler?, hdrop, hafter, Option.bind_some]

include hmark

/-- A line that begins with gaps, the starter and a ruler has that ruler. -/
theorem behindRuler?_ne_none {n : ℕ} (hgap : ∀ c ∈ gap, isGap c = true) (hn : 6 ≤ n)
    (rest : List Char) :
    behindRuler? starter mark (gap ++ starter ++ (List.replicate n mark ++ rest)) ≠ none := by
  obtain ⟨m, rfl⟩ := Nat.exists_eq_add_of_le' hn
  have hhead : ∀ c ∈ (List.replicate (m + 6) mark ++ rest).head?, isGap c = false := by
    rintro c ⟨⟩
    exact hmark
  rw [behindRuler?_lead hsolid hgap hhead, sixOf?, if_pos]
  · exact Option.some_ne_none _
  · rw [List.takeWhile_append_of_pos fun c hc => decide_eq_true (List.eq_of_mem_replicate hc)]
    rw [List.length_append, List.length_replicate]
    omega

/-- **The start of a line** has no ruler that the line does not have. -/
theorem behindRuler?_of_prefix (hfront : cs <+: line)
    (h : behindRuler? starter mark line = none) : behindRuler? starter mark cs = none := by
  cases hcs : behindRuler? starter mark cs with
  | none => rfl
  | some rest =>
    obtain ⟨n, hn, heq⟩ := eq_of_behindRuler? hcs
    obtain ⟨more, rfl⟩ := hfront
    have hgap : ∀ c ∈ cs.takeWhile isGap, isGap c = true := fun c hc =>
      List.mem_takeWhile_imp hc
    refine absurd ?_ (behindRuler?_ne_none hsolid hmark hgap hn (rest ++ more))
    rw [← h]
    conv => rhs; rw [heq]
    simp only [List.append_assoc]

end Solid

end Rulers

/-! ## Short rulers -/

/-- A line whose ruler of dashes, if it has one, has five. -/
def shorten (starter line : List Char) : List Char :=
  match behindRuler? starter '-' line with
  | some behind => line.takeWhile isGap ++ starter ++ "-----".toList ++ behind
  | none => line

/-- Whether a line is a ruler of dots, and nothing else. -/
def isDotted (starter line : List Char) : Bool :=
  (behindRuler? starter '.' line).any fun behind => behind.all isGap

/-- The ruler of five dots that a longer one becomes. -/
def dots (starter line : List Char) : List Char :=
  line.takeWhile isGap ++ starter ++ ".....".toList

/-- The lines with short rulers of dots. The line feed behind a ruler is replaced with it, so the
next line is not looked at; the last line gets one. -/
def shortDots (starter : List Char) : List (List Char) → List (List Char)
  | [] => []
  | [line] => if isDotted starter line then [dots starter line, []] else [line]
  | line :: next :: ls =>
    if isDotted starter line then dots starter line :: next :: shortDots starter ls
    else line :: shortDots starter (next :: ls)

theorem isDotted_nil (starter : List Char) : isDotted starter [] = false := by
  rw [isDotted, behindRuler?_nil]
  rfl

/-- A line is a ruler of dots if nothing but gaps follow them. -/
theorem isDotted_iff {starter : List Char} : isDotted starter line = true ↔
    ∃ behind, behindRuler? starter '.' line = some behind ∧ ∀ c ∈ behind, isGap c = true := by
  rw [isDotted]
  cases behindRuler? starter '.' line with
  | none => simp
  | some behind => simp [List.all_eq_true]

/-- A ruler of dots, and gaps behind it. -/
theorem eq_of_isDotted {starter : List Char} (h : isDotted starter line = true) :
    ∃ n behind, 6 ≤ n ∧
      line = line.takeWhile isGap ++ starter ++ List.replicate n '.' ++ behind ∧
      ∀ c ∈ behind, isGap c = true := by
  obtain ⟨behind, hruler, hgaps⟩ := isDotted_iff.mp h
  obtain ⟨n, hn, heq⟩ := eq_of_behindRuler? hruler
  exact ⟨n, behind, hn, heq, hgaps⟩

/-- A ruler of dots gets shorter. -/
theorem length_dots_lt {starter : List Char} (h : isDotted starter line = true) :
    (dots starter line).length < line.length := by
  obtain ⟨n, behind, hn, heq, -⟩ := eq_of_isDotted h
  have hlength := congrArg List.length heq
  have hfive : ".....".toList.length = 5 := rfl
  simp only [dots, List.length_append, List.length_replicate] at hlength ⊢
  omega

/-- No line is lost where rulers of dots are shortened. -/
theorem shortDots_eq_nil_iff {starter : List Char} : shortDots starter ls = [] ↔ ls = [] := by
  fun_cases shortDots starter ls <;> simp_all

theorem all_takeWhile_isGap (line : List Char) : ∀ c ∈ line.takeWhile isGap, isGap c = true :=
  fun _ hc => List.mem_takeWhile_imp hc

/-- A line without a ruler of dashes stays as it is. -/
theorem shorten_of_none {starter : List Char}
    (h : behindRuler? starter '-' line = none) : shorten starter line = line := by
  rw [shorten, h]

/-- A line with a ruler of dashes gets shorter. -/
theorem length_shorten_lt {starter : List Char} (h : behindRuler? starter '-' line ≠ none) :
    (shorten starter line).length < line.length := by
  obtain ⟨behind, hruler⟩ := Option.ne_none_iff_exists'.mp h
  obtain ⟨n, hn, heq⟩ := eq_of_behindRuler? hruler
  have hlength := congrArg List.length heq
  rw [shorten, hruler]
  simp only [List.length_append, List.length_replicate] at hlength ⊢
  have hfive : "-----".toList.length = 5 := rfl
  omega

section Solid

variable {starter : List Char} (hsolid : ∀ c ∈ starter, isBlank c = false)
include hsolid

/-- A ruler that was shortened is none. -/
theorem behindRuler?_shorten (line : List Char) :
    behindRuler? starter '-' (shorten starter line) = none := by
  rw [shorten]
  cases h : behindRuler? starter '-' line with
  | none => exact h
  | some behind =>
    have hhead : ∀ c ∈ ("-----".toList ++ behind).head?, isGap c = false := by
      rintro c ⟨⟩
      rfl
    dsimp only
    rw [List.append_assoc (_ ++ _), behindRuler?_lead hsolid (all_takeWhile_isGap line) hhead]
    exact sixOf?_replicate (n := 5) (head_of_behindRuler? h)

/-- A short ruler of dots is a ruler no more, neither of dots nor of dashes. -/
theorem behindRuler?_dots (mark : Char) (hmark : mark = '-' ∨ mark = '.') (line : List Char) :
    behindRuler? starter mark (dots starter line) = none := by
  have hhead : ∀ c ∈ ".....".toList.head?, isGap c = false := by
    rintro c ⟨⟩
    rfl
  rw [dots, behindRuler?_lead hsolid (all_takeWhile_isGap line) hhead]
  rcases hmark with rfl | rfl <;> rfl

/-- A ruler that was shortened is none. -/
theorem isDotted_dots (line : List Char) : isDotted starter (dots starter line) = false := by
  rw [isDotted, behindRuler?_dots hsolid '.' (.inr rfl)]
  rfl

end Solid

/-- A line with short rulers of dots is one of before, a short ruler, or the empty one behind the
last line feed. -/
theorem mem_shortDots {starter : List Char} (h : line ∈ shortDots starter ls) :
    line = [] ∨ line ∈ ls ∨
      ∃ before ∈ ls, isDotted starter before = true ∧ line = dots starter before := by
  fun_induction shortDots starter ls with
  | case1 => cases h
  | case2 last hdots =>
    rcases (by simpa using h : line = dots starter last ∨ line = []) with rfl | rfl
    · exact .inr (.inr ⟨last, List.mem_cons_self, hdots, rfl⟩)
    · exact .inl rfl
  | case3 last hdots => exact .inr (.inl h)
  | case4 first next ls hdots ih =>
    rcases List.mem_cons.mp h with rfl | h
    · exact .inr (.inr ⟨first, List.mem_cons_self, hdots, rfl⟩)
    rcases List.mem_cons.mp h with rfl | h
    · exact .inr (.inl (by simp))
    · obtain hnil | hmem | ⟨before, hbefore, hdotted⟩ := ih h
      · exact .inl hnil
      · exact .inr (.inl (by simp [hmem]))
      · exact .inr (.inr ⟨before, by simp [hbefore], hdotted⟩)
  | case5 first next ls hdots ih =>
    rcases List.mem_cons.mp h with rfl | h
    · exact .inr (.inl List.mem_cons_self)
    · obtain hnil | hmem | ⟨before, hbefore, hdotted⟩ := ih h
      · exact .inl hnil
      · exact .inr (.inl (List.mem_cons_of_mem first hmem))
      · exact .inr (.inr ⟨before, List.mem_cons_of_mem first hbefore, hdotted⟩)

/-- A line that is no ruler of dots stays. -/
theorem mem_shortDots_of_mem {starter : List Char} (hdots : isDotted starter line = false)
    (h : line ∈ ls) : line ∈ shortDots starter ls := by
  fun_induction shortDots starter ls with
  | case1 => cases h
  | case2 last hlast =>
    obtain rfl := List.mem_singleton.mp h
    rw [hdots] at hlast
    cases hlast
  | case3 last hlast => exact h
  | case4 first next ls hfirst ih =>
    rcases List.mem_cons.mp h with rfl | h
    · rw [hdots] at hfirst
      cases hfirst
    rcases List.mem_cons.mp h with rfl | h
    · simp
    · exact List.mem_cons_of_mem _ (List.mem_cons_of_mem _ (ih h))
  | case5 first next ls hfirst ih =>
    rcases List.mem_cons.mp h with rfl | h
    · exact List.mem_cons_self
    · exact List.mem_cons_of_mem _ (ih h)

/-! ## The end of a line -/

theorem lineEnd?_nil : lineEnd? [] = some ([], []) := rfl

theorem lineEnd?_feed (cs : List Char) : lineEnd? ('\n' :: cs) = some (['\n'], cs) := rfl

/-- A line has ended where only gaps are left of it. -/
theorem lineEnd?_append (hline : '\n' ∉ line) (rest : List Char) :
    lineEnd? (line ++ rest) = if line.all isGap then lineEnd? rest else none := by
  induction line with
  | nil => rfl
  | cons c cs ih =>
    obtain ⟨hc, hcs⟩ := not_or.mp (mt List.mem_cons.mpr hline)
    cases hgap : isGap c with
    | true =>
      rw [List.all_cons, hgap, Bool.true_and, ← ih hcs, lineEnd?, lineEnd?, List.cons_append,
        List.dropWhile_cons_of_pos hgap]
    | false =>
      rw [List.all_cons, hgap, lineEnd?, List.cons_append,
        List.dropWhile_cons_of_neg (by simp [hgap])]
      exact if_neg (Ne.symm hc)

theorem lineEnd?_suffix {feed behind : List Char} (h : lineEnd? cs = some (feed, behind)) :
    behind <:+ cs := by
  rw [lineEnd?] at h
  split at h
  · cases h
    exact List.nil_suffix
  · rename_i c rest heq
    split_ifs at h
    cases h
    exact (List.suffix_cons c _).trans (heq ▸ List.dropWhile_suffix isGap)

/-! ## The rules -/

/-- What ends a line with a ruler of dashes: the ruler. -/
def finishDashes (cs : List Char) : Option (List (List Char) × List Char) :=
  (sixOf? '-' cs).map fun rest => ([], rest)

/-- What ends a line with a ruler of dots: the ruler and the line. -/
def finishDots (cs : List Char) : Option (List (List Char) × List Char) :=
  (sixOf? '.' cs).bind fun rest => (lineEnd? rest).map fun (feed, rest) => ([feed], rest)

/-- The rule for long rulers is a rule for lines that begin with the starter, and fills in five
dashes. -/
theorem longRulers_eq (starter : List Char) : longRulers starter =
    starterRule starter finishDashes (leadTemplate ++ starter ++ "-----".toList) := rfl

/-- The rule for dotted rulers is a rule for lines that begin with the starter, and fills in five
dots and a line feed. -/
theorem dottedRulers_eq (starter : List Char) : dottedRulers starter =
    starterRule starter finishDots (leadTemplate ++ starter ++ ".....\n".toList) := rfl

theorem sixOf?_of_isGap {c mark : Char} (hmark : isGap mark = false) (hc : isGap c = true)
    (cs : List Char) : sixOf? mark (c :: cs) = none := by
  have hne : ¬ c = mark := by
    rintro rfl
    rw [hc] at hmark
    cases hmark
  rw [sixOf?, List.takeWhile_cons_of_neg (by simp [hne])]
  rfl

/-- Finding marks takes at least one character off. -/
theorem suffix_of_sixOf? {mark : Char} (h : sixOf? mark cs = some rest) :
    ∃ c more, cs = c :: more ∧ rest <:+ more := by
  obtain ⟨-, n, hn, rfl⟩ := sixOf?_eq_some_iff.mp h
  obtain ⟨m, rfl⟩ := Nat.exists_eq_add_of_le' hn
  exact ⟨mark, List.replicate (m + 5) mark ++ rest, rfl, List.suffix_append _ _⟩

/-- A ruler of dashes is visible. -/
theorem finishes_finishDashes : Finishes finishDashes := by
  constructor
  · intro c cs hc
    rw [finishDashes, sixOf?_of_isGap rfl hc]
    rfl
  · intro cs parts behind h
    obtain ⟨rest, hsix, heq⟩ := Option.map_eq_some_iff.mp h
    cases heq
    exact suffix_of_sixOf? hsix

/-- A ruler of dots is visible. -/
theorem finishes_finishDots : Finishes finishDots := by
  constructor
  · intro c cs hc
    rw [finishDots, sixOf?_of_isGap rfl hc]
    rfl
  · intro cs parts behind h
    obtain ⟨rest, hsix, hend⟩ := Option.bind_eq_some_iff.mp h
    obtain ⟨⟨feed, rest'⟩, hline, heq⟩ := Option.map_eq_some_iff.mp hend
    cases heq
    obtain ⟨c, more, rfl, hrest⟩ := suffix_of_sixOf? hsix
    exact ⟨c, more, rfl, (lineEnd?_suffix hline).trans hrest⟩

/-- What the rule for long rulers finds on a line is a ruler of dashes. -/
theorem found_finishDashes (starter cs : List Char) :
    found starter finishDashes cs = (behindRuler? starter '-' cs).map fun rest => ([], rest) := by
  rw [found, behindRuler?]
  cases after? (String.ofList starter) (cs.dropWhile isGap) <;> rfl

/-- What the rule for dotted rulers finds on a line is a ruler of dots and the end of the line. -/
theorem found_finishDots (starter cs : List Char) :
    found starter finishDots cs = (behindRuler? starter '.' cs).bind fun rest =>
      (lineEnd? rest).map fun (feed, rest) => ([feed], rest) := by
  rw [found, behindRuler?, Option.bind_assoc]
  rfl

theorem tail_dashes : Tail "-----".toList :=
  ⟨by decide, by decide, by rintro c ⟨⟩; decide⟩

theorem tail_dots : Tail ".....\n".toList :=
  ⟨by decide, by decide, by rintro c ⟨⟩; decide⟩

section Plain

variable {starter : List Char} (hsolid : ∀ c ∈ starter, isBlank c = false)
include hsolid

theorem notMem_of_solid : '\n' ∉ starter := fun hmem => by
  have hblank := hsolid '\n' hmem
  cases hblank

/-- A dotted ruler is found exactly on a line that is one. -/
theorem found_finishDots_append (hline : '\n' ∉ line) (hrest : AtFeed rest) :
    found starter finishDots (line ++ rest) =
      if isDotted starter line then (lineEnd? rest).map fun (feed, behind) => ([feed], behind)
      else none := by
  rw [found_finishDots, behindRuler?_append (notMem_of_solid hsolid) (by decide) hrest, isDotted]
  cases hruler : behindRuler? starter '.' line with
  | none => rfl
  | some behind =>
    have hbehind : '\n' ∉ behind := fun hmem => hline ((behindRuler?_suffix hruler).subset hmem)
    rw [Option.map_some, Option.bind_some, lineEnd?_append hbehind, Option.any_some]
    split <;> rfl

/-- A text without a ruler of dashes, whatever the starter means in a template. -/
theorem substitute_longRulers_eq_self (h : AreLines ls)
    (hnone : ∀ line ∈ ls, behindRuler? starter '-' line = none) :
    substitute (longRulers starter) (ofLines ls) = ofLines ls := by
  rw [longRulers_eq]
  refine substitute_starterRule_eq_self hsolid finishes_finishDashes h fun line hline rest hrest => ?_
  rw [found_finishDashes, behindRuler?_append (notMem_of_solid hsolid) (by decide) hrest,
    hnone line hline]
  rfl

/-- A text without a ruler of dots, whatever the starter means in a template. -/
theorem substitute_dottedRulers_eq_self (h : AreLines ls)
    (hnone : ∀ line ∈ ls, isDotted starter line = false) :
    substitute (dottedRulers starter) (ofLines ls) = ofLines ls := by
  rw [dottedRulers_eq]
  refine substitute_starterRule_eq_self hsolid finishes_finishDots h fun line hline rest hrest => ?_
  rw [found_finishDots_append hsolid (h line hline) hrest, hnone line hline]
  rfl

variable (hplain : IsPlain starter)
include hplain

/-- **Rulers of dashes** are shortened line by line. -/
theorem substitute_longRulers (h : AreLines ls) :
    substitute (longRulers starter) (ofLines ls) = ofLines (ls.map (shorten starter)) := by
  rw [longRulers_eq]
  induction ls with
  | nil => rw [ofLines, substitute, substituteFrom]; rfl
  | cons line ls ih =>
    obtain ⟨hline, hls⟩ := List.forall_mem_cons.mp h
    have hfeeds := atFeed_behindFeeds ls
    have hmore := substituteFrom_behindFeeds hsolid finishes_finishDashes hplain tail_dashes
      List.map_eq_nil_iff (ih hls)
    have hfound := found_finishDashes starter (line ++ behindFeeds ls)
    rw [behindRuler?_append (notMem_of_solid hsolid) (by decide) hfeeds] at hfound
    rw [List.map_cons, ofLines_cons, ofLines_cons, shorten]
    cases hruler : behindRuler? starter '-' line with
    | none =>
      rw [hruler] at hfound
      rw [substitute_starterRule_of_none hsolid finishes_finishDashes hfound,
        substituteFrom_starterRule hline, hmore]
    | some behind =>
      have hbehind : '\n' ∉ behind := fun hmem => hline ((behindRuler?_suffix hruler).subset hmem)
      rw [hruler] at hfound
      rw [substitute_starterRule_of_some hsolid finishes_finishDashes hfound,
        expand_template hplain tail_dashes, substituteFrom_starterRule hbehind, hmore,
        takeWhile_isGap_append hfeeds]
      simp

/-- **Rulers of dots** are shortened, but none of two adjacent lines after the other. -/
theorem substitute_dottedRulers (h : AreLines ls) :
    substitute (dottedRulers starter) (ofLines ls) = ofLines (shortDots starter ls) := by
  rw [dottedRulers_eq]
  fun_induction shortDots starter ls with
  | case1 => rw [ofLines, substitute, substituteFrom]
  | case2 line hdots =>
    have hfound := found_finishDots_append hsolid (h line (by simp)) atFeed_nil
    rw [hdots, if_pos rfl, lineEnd?_nil, List.append_nil] at hfound
    rw [ofLines_cons, behindFeeds_nil, List.append_nil,
      substitute_starterRule_of_some hsolid finishes_finishDots hfound,
      expand_template hplain tail_dots, substituteFrom, ofLines_cons]
    simp [dots, ofLines]
  | case3 line hdots =>
    have hline := h line (by simp)
    have hfound := found_finishDots_append hsolid hline atFeed_nil
    rw [if_neg hdots] at hfound
    rw [ofLines_cons, behindFeeds_nil,
      substitute_starterRule_of_none hsolid finishes_finishDots hfound,
      substituteFrom_starterRule hline, substituteFrom]
  | case4 line next ls hdots ih =>
    obtain ⟨hline, hmore⟩ := List.forall_mem_cons.mp h
    obtain ⟨hnext, hls⟩ := List.forall_mem_cons.mp hmore
    have hbehind := substituteFrom_behindFeeds hsolid finishes_finishDots hplain tail_dots
      shortDots_eq_nil_iff (ih hls)
    have hfound := found_finishDots_append hsolid hline (atFeed_cons (ofLines (next :: ls)))
    rw [hdots, if_pos rfl, lineEnd?_feed] at hfound
    rw [ofLines_cons, behindFeeds_cons,
      substitute_starterRule_of_some hsolid finishes_finishDots hfound,
      expand_template hplain tail_dots, ofLines_cons, substituteFrom_starterRule hnext, hbehind,
      takeWhile_isGap_append (atFeed_cons _)]
    simp [dots, ofLines]
  | case5 line next ls hdots ih =>
    obtain ⟨hline, hmore⟩ := List.forall_mem_cons.mp h
    have hbehind := substituteFrom_behindFeeds hsolid finishes_finishDots hplain tail_dots
      shortDots_eq_nil_iff (ih hmore)
    have hfound := found_finishDots_append hsolid hline (atFeed_behindFeeds (next :: ls))
    rw [if_neg hdots] at hfound
    rw [ofLines_cons, substitute_starterRule_of_none hsolid finishes_finishDots hfound,
      substituteFrom_starterRule hline, hbehind]
    rfl

end Plain

end Tabletop.Comment
