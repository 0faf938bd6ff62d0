import Tabletop.Comment.Layout
import Tabletop.Proofs.Text.Substitution

/-!
# Rules for lines behind the starter

Two rules of the layout are for lines that begin with the starter, and are told by what ends them.
What do they do to a text, line by line?

* Of the ways to take gaps off the start of a line **only the one that takes all** counts, if neither
  the starter nor what ends the rule begins with a gap (`findSome?_gapSplits`): a rule finds what
  stands behind all gaps and the starter (`found`, `starterRule_eq`);
* away from the starts of lines a text is copied (`substituteFrom_starterRule`), and a text without a
  line that the rule is for stays as it is (`substitute_starterRule_eq_self`);
* a **plain** starter stands for itself in the template (`expand_template`), so the rule does behind a
  line feed what it does at the start of a text (`substituteFrom_feed`).
-/

namespace Tabletop.Comment

open Text

variable {cs rest line : List Char} {ls : List (List Char)}

theorem isBlank_of_isGap {c : Char} (h : isGap c = true) : isBlank c = true := by
  rcases Bool.or_eq_true_iff.mp h with h | h
  · exact eq_of_beq h ▸ rfl
  · exact eq_of_beq h ▸ rfl

/-- A visible character is no gap. -/
theorem isGap_of_visible {c : Char} (h : isBlank c = false) : isGap c = false := by
  rw [Bool.eq_false_iff] at h ⊢
  exact mt isBlank_of_isGap h

section Starter

variable {β : Type} {starter tail : List Char}
  {finish : List Char → Option (List (List Char) × List Char)} {template : List Char}
  {parts : List (List Char)} {behind : List Char}

/-- What is found at a text that begins with a gap counts for nothing, so only the split with all
gaps counts. -/
theorem findSome?_gapSplits {f : List Char × List Char → Option β}
    (hf : ∀ gap c cs, isGap c = true → f (gap, c :: cs) = none) (cs : List Char) :
    (gapSplits cs).findSome? f = f (cs.takeWhile isGap, cs.dropWhile isGap) := by
  induction cs generalizing f with
  | nil => simp [gapSplits]
  | cons c cs ih =>
    cases hc : isGap c with
    | false =>
      rw [gapSplits, if_neg (by simp [hc]), List.takeWhile_cons_of_neg (by simp [hc]),
        List.dropWhile_cons_of_neg (by simp [hc])]
      simp
    | true =>
      have hmore := ih (f := fun split => f (c :: split.1, split.2))
        fun gap d ds hd => hf (c :: gap) d ds hd
      rw [gapSplits, if_pos hc, List.findSome?_append, List.findSome?_map,
        List.takeWhile_cons_of_pos hc, List.dropWhile_cons_of_pos hc]
      simp only [List.findSome?_cons, List.findSome?_nil, hf [] c cs hc, Option.or_none]
      exact hmore

/-- What a line begins with behind its gaps and the starter. -/
def found (starter : List Char) (finish : List Char → Option (List (List Char) × List Char))
    (line : List Char) : Option (List (List Char) × List Char) :=
  (after? (String.ofList starter) (line.dropWhile isGap)).bind finish

/-- What ends a rule for lines looks for something visible, and takes it off. -/
structure Finishes (finish : List Char → Option (List (List Char) × List Char)) : Prop where
  visible : ∀ c cs, isGap c = true → finish (c :: cs) = none
  suffix : ∀ cs parts behind, finish cs = some (parts, behind) →
    ∃ c rest, cs = c :: rest ∧ behind <:+ rest

/-- What is written behind the starter. -/
structure Tail (tail : List Char) : Prop where
  dollar : '$' ∉ tail
  close : '\x7d' ∉ tail
  head : ∀ c ∈ tail.head?, c ≠ '$' ∧ c ≠ '\x7b' ∧ isNameChar c = false

theorem lineStarts_true (cs : List Char) :
    lineStarts true cs = ([], cs) :: lineStarts false cs := rfl

/-- Past the start of the text, a line starts behind a line feed. -/
theorem lineStarts_feed (cs : List Char) : lineStarts false ('\n' :: cs) = [(['\n'], cs)] := rfl

/-- Within a line no line starts. -/
theorem lineStarts_within {c : Char} (hc : c ≠ '\n') (cs : List Char) :
    lineStarts false (c :: cs) = [] := by
  rw [lineStarts]
  · rfl
  · exact fun rest heq => hc (List.cons.inj heq).1

theorem suffix_of_mem_lineStarts {b : Bool} {lead : List Char} (h : (lead, line) ∈ lineStarts b cs) :
    line <:+ cs := by
  rcases List.mem_append.mp h with h | h
  · split_ifs at h
    · cases List.mem_singleton.mp h
      exact List.suffix_refl _
    · cases h
  · split at h
    · cases List.mem_singleton.mp h
      exact List.suffix_cons _ _
    · cases h

theorem suffix_of_mem_gapSplits {gap text : List Char} (h : (gap, text) ∈ gapSplits cs) :
    text <:+ cs := by
  induction cs generalizing gap with
  | nil =>
    cases List.mem_singleton.mp h
    exact List.suffix_refl _
  | cons c cs ih =>
    rw [gapSplits] at h
    split_ifs at h
    · rcases List.mem_append.mp h with h | h
      · obtain ⟨⟨gap', text'⟩, hmem, heq⟩ := List.mem_map.mp h
        cases heq
        exact (ih hmem).trans (List.suffix_cons c cs)
      · cases List.mem_singleton.mp h
        exact List.suffix_refl _
    · cases List.mem_singleton.mp h
      exact List.suffix_refl _

/-- Away from the starts of lines, a text is copied. -/
theorem substituteFrom_starterRule (hline : '\n' ∉ line) (rest : List Char) :
    substituteFrom (starterRule starter finish template) false (line ++ rest) =
      line ++ substituteFrom (starterRule starter finish template) false rest := by
  refine substituteFrom_append fun c t ht => ?_
  have hc : c ≠ '\n' := by
    rintro rfl
    exact hline (ht.subset List.mem_cons_self)
  rw [starterRule, List.cons_append, lineStarts_within hc]
  rfl

/-! ### The template -/

/-- The template begins with two references. -/
theorem expand_leadTemplate (whole lead gap : List Char) (parts : List (List Char))
    (cs : List Char) :
    expand (whole :: lead :: gap :: parts) (leadTemplate ++ cs) =
      lead ++ (gap ++ expand (whole :: lead :: gap :: parts) cs) := by
  have htemplate : leadTemplate ++ cs =
      '$' :: '\x7b' :: (['1'] ++ '\x7d' :: '$' :: '\x7b' :: (['2'] ++ '\x7d' :: cs)) := rfl
  rw [htemplate, expand_reference (by decide), expand_reference (by decide)]
  rfl

/-- **A plain starter** stands for itself. -/
theorem expand_template (hplain : IsPlain starter) (htail : Tail tail) (whole lead gap : List Char)
    (parts : List (List Char)) :
    expand (whole :: lead :: gap :: parts) (leadTemplate ++ starter ++ tail) =
      lead ++ (gap ++ starter ++ tail) := by
  rw [List.append_assoc leadTemplate, expand_leadTemplate, expand_append htail.head htail.close,
    hplain, isPlain_of_notMem htail.dollar, ← List.append_assoc gap]

/-! ### What a rule finds -/

/-- Behind what a rule finds, there is less text. -/
theorem suffix_of_found (hfin : Finishes finish)
    (h : found starter finish cs = some (parts, behind)) :
    ∃ c rest, cs = c :: rest ∧ behind <:+ rest := by
  obtain ⟨text, htext, hfinish⟩ := Option.bind_eq_some_iff.mp h
  rw [after?_eq_some_iff, String.toList_ofList] at htext
  obtain ⟨c, rest, rfl, hbehind⟩ := hfin.suffix text parts behind hfinish
  have hcs : cs = cs.takeWhile isGap ++ starter ++ c :: rest := by
    rw [List.append_assoc, ← htext, List.takeWhile_append_dropWhile]
  cases hfront : cs.takeWhile isGap ++ starter with
  | nil => exact ⟨c, rest, by rwa [hfront] at hcs, hbehind⟩
  | cons d ds =>
    refine ⟨d, ds ++ c :: rest, by rwa [hfront] at hcs, ?_⟩
    exact (hbehind.trans (List.suffix_cons c rest)).trans (List.suffix_append ds _)

/-- Where nothing ends the rule, it does not fit. -/
theorem starterRule_eq_none (hnone : ∀ text, text <:+ cs → finish text = none) (b : Bool) :
    starterRule starter finish template b cs = none := by
  rw [starterRule, List.findSome?_eq_none_iff]
  rintro ⟨lead, line⟩ hlead
  rw [List.findSome?_eq_none_iff]
  rintro ⟨gap, text⟩ hgap
  have hsuffix : text <:+ cs := (suffix_of_mem_gapSplits hgap).trans (suffix_of_mem_lineStarts hlead)
  cases h : after? (String.ofList starter) text with
  | none => simp [h]
  | some behind =>
    rw [after?_eq_some_iff] at h
    have hbehind : behind <:+ cs := (h ▸ List.suffix_append _ _ : behind <:+ text).trans hsuffix
    simp [after?_eq_some_iff.mpr h, hnone behind hbehind]

variable (hsolid : ∀ c ∈ starter, isBlank c = false) (hfin : Finishes finish)
include hsolid hfin

/-- Neither the starter nor what ends the rule begins with a gap. -/
theorem after?_bind_of_isGap {c : Char} (hc : isGap c = true) (cs : List Char) :
    (after? (String.ofList starter) (c :: cs)).bind finish = none := by
  cases h : after? (String.ofList starter) (c :: cs) with
  | none => rfl
  | some text =>
    rw [after?_eq_some_iff, String.toList_ofList] at h
    cases starter with
    | nil =>
      rw [← List.nil_append text, ← h]
      exact hfin.visible c cs hc
    | cons d ds =>
      obtain ⟨rfl, -⟩ := List.cons.inj h
      rw [isGap_of_visible (hsolid c List.mem_cons_self)] at hc
      cases hc

/-- **Where a rule for lines fits**: at the starts of lines at which it finds something. -/
theorem starterRule_eq (b : Bool) (cs : List Char) :
    starterRule starter finish template b cs =
      (lineStarts b cs).findSome? fun (lead, line) =>
        (found starter finish line).map fun (parts, behind) =>
          (expand (cs.take (cs.length - behind.length) :: lead :: line.takeWhile isGap :: parts)
            template, cs.length - behind.length) := by
  rw [starterRule]
  congr 1
  funext split
  obtain ⟨lead, line⟩ := split
  dsimp only
  rw [findSome?_gapSplits]
  · simp only [found]
    cases after? (String.ofList starter) (line.dropWhile isGap) with
    | none => rfl
    | some text =>
      simp only [Option.bind_eq_bind, Option.bind_some]
      cases finish text <;> rfl
  · intro gap c cs' hc
    have hnone := after?_bind_of_isGap hsolid hfin hc cs'
    cases h : after? (String.ofList starter) (c :: cs') with
    | none => rfl
    | some text =>
      rw [h, Option.bind_some] at hnone
      simp only [Option.bind_eq_bind, Option.bind_some, hnone]
      rfl

/-! ### Line by line -/

/-- At the start of a text that the rule is not for, the start counts for nothing. -/
theorem starterRule_of_found_eq_none (h : found starter finish cs = none) :
    starterRule starter finish template true cs = starterRule starter finish template false cs := by
  rw [starterRule_eq hsolid hfin, starterRule_eq hsolid hfin, lineStarts_true, List.findSome?_cons]
  dsimp only
  rw [h]
  rfl

/-- A text whose first line is none that the rule is for. -/
theorem substitute_starterRule_of_none (h : found starter finish cs = none) :
    substitute (starterRule starter finish template) cs =
      substituteFrom (starterRule starter finish template) false cs := by
  have hstart : starterRule starter finish template true cs =
      starterRule starter finish template false cs := starterRule_of_found_eq_none hsolid hfin h
  cases cs with
  | nil => rw [substitute, substituteFrom, substituteFrom]
  | cons c cs => rw [substitute, substituteFrom, substituteFrom, hstart]

/-- A text whose first line is one that the rule is for. -/
theorem substitute_starterRule_of_some (h : found starter finish cs = some (parts, behind)) :
    substitute (starterRule starter finish template) cs =
      expand (cs.take (cs.length - behind.length) :: [] :: cs.takeWhile isGap :: parts) template ++
        substituteFrom (starterRule starter finish template) false behind := by
  obtain ⟨c, rest, rfl, hbehind⟩ := suffix_of_found hfin h
  have hfits : starterRule starter finish template true (c :: rest) = some
      (expand ((c :: rest).take ((c :: rest).length - behind.length) :: [] ::
        (c :: rest).takeWhile isGap :: parts) template, (c :: rest).length - behind.length) := by
    rw [starterRule_eq hsolid hfin, lineStarts_true, List.findSome?_cons]
    dsimp only
    rw [h]
    rfl
  rw [substitute, substituteFrom_of_some hfits hbehind]

/-- The start of another line that the rule is for. -/
theorem substituteFrom_feed_of_some (h : found starter finish cs = some (parts, behind)) :
    substituteFrom (starterRule starter finish template) false ('\n' :: cs) =
      expand (('\n' :: cs).take (('\n' :: cs).length - behind.length) :: ['\n'] ::
        cs.takeWhile isGap :: parts) template ++
        substituteFrom (starterRule starter finish template) false behind := by
  obtain ⟨c, rest, rfl, hbehind⟩ := suffix_of_found hfin h
  have hfits : starterRule starter finish template false ('\n' :: c :: rest) = some
      (expand (('\n' :: c :: rest).take (('\n' :: c :: rest).length - behind.length) :: ['\n'] ::
        (c :: rest).takeWhile isGap :: parts) template,
        ('\n' :: c :: rest).length - behind.length) := by
    rw [starterRule_eq hsolid hfin, lineStarts_feed, List.findSome?_cons]
    dsimp only
    rw [h]
    rfl
  rw [substituteFrom_of_some hfits (hbehind.trans (List.suffix_cons c rest))]

/-- The start of another line that the rule is not for. -/
theorem substituteFrom_feed_of_none (h : found starter finish cs = none) :
    substituteFrom (starterRule starter finish template) false ('\n' :: cs) =
      '\n' :: substituteFrom (starterRule starter finish template) false cs := by
  refine substituteFrom_of_none ?_
  rw [starterRule_eq hsolid hfin, lineStarts_feed, List.findSome?_cons]
  dsimp only
  rw [h]
  rfl

/-- A text without a line that the rule is for. -/
theorem substitute_starterRule_eq_self (h : AreLines ls)
    (hnone : ∀ line ∈ ls, ∀ rest, AtFeed rest → found starter finish (line ++ rest) = none) :
    substitute (starterRule starter finish template) (ofLines ls) = ofLines ls := by
  induction ls with
  | nil => rw [ofLines, substitute, substituteFrom]
  | cons line ls ih =>
    obtain ⟨hline, hls⟩ := List.forall_mem_cons.mp h
    obtain ⟨hfirst, hmore⟩ := List.forall_mem_cons.mp hnone
    rw [ofLines_cons, substitute_starterRule_of_none hsolid hfin (hfirst _ (atFeed_behindFeeds ls)),
      substituteFrom_starterRule hline]
    cases ls with
    | nil => rw [behindFeeds_nil, substituteFrom]
    | cons next ls =>
      have hnext : found starter finish (ofLines (next :: ls)) = none :=
        hmore next List.mem_cons_self _ (atFeed_behindFeeds ls)
      rw [behindFeeds_cons, substituteFrom_feed_of_none hsolid hfin hnext,
        ← substitute_starterRule_of_none hsolid hfin hnext, ih hls hmore]

/-- **At a line feed** the rule does what it does at the start of a text. -/
theorem substituteFrom_feed (hplain : IsPlain starter) (htail : Tail tail) (cs : List Char) :
    substituteFrom (starterRule starter finish (leadTemplate ++ starter ++ tail)) false
        ('\n' :: cs) =
      '\n' :: substitute (starterRule starter finish (leadTemplate ++ starter ++ tail)) cs := by
  cases h : found starter finish cs with
  | none =>
    rw [substituteFrom_feed_of_none hsolid hfin h, substitute_starterRule_of_none hsolid hfin h]
  | some hit =>
    rw [substituteFrom_feed_of_some hsolid hfin h, substitute_starterRule_of_some hsolid hfin h,
      expand_template hplain htail, expand_template hplain htail]
    rfl

/-- The lines behind the first one, given what becomes of their text. -/
theorem substituteFrom_behindFeeds (hplain : IsPlain starter) (htail : Tail tail)
    {ks : List (List Char)} (hnil : ks = [] ↔ ls = [])
    (h : substitute (starterRule starter finish (leadTemplate ++ starter ++ tail)) (ofLines ls) =
      ofLines ks) :
    substituteFrom (starterRule starter finish (leadTemplate ++ starter ++ tail)) false
      (behindFeeds ls) = behindFeeds ks := by
  by_cases hls : ls = []
  · rw [hnil.mpr hls, hls, behindFeeds_nil, substituteFrom]
  · rw [behindFeeds_of_ne_nil hls, behindFeeds_of_ne_nil (mt hnil.mp hls),
      substituteFrom_feed hsolid hfin hplain htail, h]

end Starter

end Tabletop.Comment
