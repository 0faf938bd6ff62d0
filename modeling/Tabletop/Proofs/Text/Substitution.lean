import Tabletop.Proofs.Text.Marks
import Tabletop.Text.Substitution

/-!
# Substitution line by line

A rule is tried at every place of a text, from left to right. Most rules fit at the ends of lines or
at their starts, and what they do to a text is told by what they do to its lines.

* **ofLines** is the text with given lines, and every text is one (`ofLines_splitOn`,
  `splitOn_ofLines`). Behind a line the text ends or goes on with a line feed (`AtFeed`), so what is
  looked for within a line stops there (`takeWhile_append_of_head`, `dropWhile_append_of_head`);
* where a rule does not fit, the text is **copied** (`substituteFrom_append`); a rule that fits where
  what is left of the line meets a condition cuts the line there: **upTo** is what is left of it
  (`substituteFrom_line`);
* a **plain** text is a template without references (`IsPlain`): it stands for itself between other
  templates (`expand_append`). In any other text something is lost when it is filled, and that tells
  it apart from what it becomes (`dwindles`).
-/

namespace Tabletop.Text

variable {cs rest line : List Char} {ls : List (List Char)}

/-! ## Texts and their lines -/

/-- Lines, each behind a line feed. -/
def behindFeeds (ls : List (List Char)) : List Char := ls.flatMap fun line => '\n' :: line

/-- The text with these lines. -/
def ofLines : List (List Char) → List Char
  | [] => []
  | line :: ls => line ++ behindFeeds ls

/-- No line has a line feed. -/
def AreLines (ls : List (List Char)) : Prop := ∀ line ∈ ls, '\n' ∉ line

@[simp] theorem behindFeeds_nil : behindFeeds [] = [] := rfl

@[simp] theorem behindFeeds_cons (line : List Char) (ls : List (List Char)) :
    behindFeeds (line :: ls) = '\n' :: ofLines (line :: ls) := rfl

theorem ofLines_cons (line : List Char) (ls : List (List Char)) :
    ofLines (line :: ls) = line ++ behindFeeds ls := rfl

theorem ofLines_singleton (line : List Char) : ofLines [line] = line := List.append_nil line

/-- The text with some lines has line feeds between them, and none at its end. -/
theorem ofLines_eq_intercalate (ls : List (List Char)) : ofLines ls = ['\n'].intercalate ls := by
  cases ls with
  | nil => rfl
  | cons line ls =>
    induction ls generalizing line with
    | nil => simp [ofLines]
    | cons next ls ih =>
      rw [List.intercalate_cons_cons, ← ih next, ofLines_cons, behindFeeds_cons]
      simp

/-- Every text is the text with its lines. -/
theorem ofLines_splitOn (cs : List Char) : ofLines (cs.splitOn '\n') = cs := by
  rw [ofLines_eq_intercalate, List.intercalate_splitOn]

/-- **The text of lines** has these lines. -/
theorem splitOn_ofLines (h : AreLines ls) (hne : ls ≠ []) : (ofLines ls).splitOn '\n' = ls := by
  rw [ofLines_eq_intercalate, List.splitOn_intercalate _ h hne]

theorem areLines_splitOn (cs : List Char) : AreLines (cs.splitOn '\n') :=
  fun _ => notMem_of_mem_splitOn

/-- Every text is that of some lines. -/
theorem exists_ofLines (cs : List Char) : ∃ ls, AreLines ls ∧ ls ≠ [] ∧ cs = ofLines ls :=
  ⟨_, areLines_splitOn cs, List.splitOn_ne_nil _ _, (ofLines_splitOn cs).symm⟩

/-- The lines of a text tell it. -/
theorem ofLines_inj {ks : List (List Char)} (hks : AreLines ks) (hls : AreLines ls)
    (hks' : ks ≠ []) (hls' : ls ≠ []) (h : ofLines ks = ofLines ls) : ks = ls := by
  rw [← splitOn_ofLines hks hks', h, splitOn_ofLines hls hls']

/-- The place behind a line: the end of the text, or a line feed. -/
def AtFeed (rest : List Char) : Prop := ∀ c ∈ rest.head?, c = '\n'

theorem atFeed_nil : AtFeed [] := by rintro c ⟨⟩

theorem atFeed_cons (cs : List Char) : AtFeed ('\n' :: cs) := by
  rintro c ⟨⟩
  rfl

theorem behindFeeds_of_ne_nil (h : ls ≠ []) : behindFeeds ls = '\n' :: ofLines ls := by
  obtain ⟨line, ls, rfl⟩ := List.exists_cons_of_ne_nil h
  rfl

theorem AreLines.of_suffix {ks : List (List Char)} (h : AreLines ls) (hks : ks <:+ ls) :
    AreLines ks := fun line hline => h line (hks.subset hline)

/-- The last lines are the end of the text. -/
theorem ofLines_suffix {ks : List (List Char)} (hks : ks <:+ ls) (hne : ks ≠ []) :
    ofLines ks <:+ ofLines ls := by
  induction ls with
  | nil =>
    obtain rfl := List.eq_nil_of_suffix_nil hks
    exact List.suffix_refl _
  | cons line ls ih =>
    rcases List.suffix_cons_iff.mp hks with rfl | hks
    · exact List.suffix_refl _
    · have hls : ls ≠ [] := by
        rintro rfl
        exact hne (List.eq_nil_of_suffix_nil hks)
      rw [ofLines_cons, behindFeeds_of_ne_nil hls]
      exact ((ih hks).trans (List.suffix_cons _ _)).trans (List.suffix_append line _)

/-- Behind a line, and before others, a line feed stands. -/
theorem atFeed_behindFeeds (ls : List (List Char)) : AtFeed (behindFeeds ls) := by
  cases ls with
  | nil => exact atFeed_nil
  | cons line ls => exact atFeed_cons _

/-- What no line feed meets is met by nothing at the end of a line. -/
theorem AtFeed.head {p : Char → Bool} (h : AtFeed rest) (hp : p '\n' = false) :
    ∀ c ∈ rest.head?, p c = false := fun c hc => h c hc ▸ hp

/-- Taking stops at the end of a line if it stops at what follows. -/
theorem takeWhile_append_of_head {p : Char → Bool} (h : ∀ c ∈ rest.head?, p c = false)
    (cs : List Char) : (cs ++ rest).takeWhile p = cs.takeWhile p := by
  induction cs with
  | nil =>
    cases rest with
    | nil => rfl
    | cons c rest => exact List.takeWhile_cons_of_neg (by simp [h c rfl])
  | cons c cs ih => rw [List.cons_append, List.takeWhile_cons, List.takeWhile_cons, ih]

/-- What follows a line stays if dropping stops there. -/
theorem dropWhile_append_of_head {p : Char → Bool} (h : ∀ c ∈ rest.head?, p c = false)
    (cs : List Char) : (cs ++ rest).dropWhile p = cs.dropWhile p ++ rest := by
  induction cs with
  | nil =>
    cases rest with
    | nil => rfl
    | cons c rest => exact List.dropWhile_cons_of_neg (by simp [h c rfl])
  | cons c cs ih =>
    rw [List.cons_append, List.dropWhile_cons, List.dropWhile_cons, ih]
    split <;> rfl

/-- What a text begins with is in front of a line feed, if it has none. -/
theorem prefix_of_prefix_append {lead : List Char} (hlead : '\n' ∉ lead) (hrest : AtFeed rest)
    (h : lead <+: cs ++ rest) : lead <+: cs := by
  induction lead generalizing cs with
  | nil => exact List.nil_prefix
  | cons d ds ih =>
    cases cs with
    | nil =>
      obtain ⟨more, heq⟩ := h
      have hd : d = '\n' := hrest d (by rw [← List.nil_append rest, ← heq]; rfl)
      exact absurd (hd ▸ List.mem_cons_self) hlead
    | cons c cs =>
      obtain ⟨rfl, htail⟩ := List.cons_prefix_cons.mp h
      exact List.cons_prefix_cons.mpr
        ⟨rfl, ih (fun hmem => hlead (List.mem_cons_of_mem _ hmem)) htail⟩

/-- A lead without a line feed is looked for within the line. -/
theorem after?_append {lead : String} (hlead : '\n' ∉ lead.toList) (hrest : AtFeed rest)
    (cs : List Char) : after? lead (cs ++ rest) = (after? lead cs).map (· ++ rest) := by
  cases h : after? lead cs with
  | some text =>
    rw [after?_eq_some_iff] at h
    rw [Option.map_some, after?_eq_some_iff, h, List.append_assoc]
  | none =>
    rw [Option.map_none, ← Option.not_isSome_iff_eq_none, Option.isSome_iff_exists]
    rintro ⟨text, htext⟩
    rw [after?_eq_some_iff] at htext
    obtain ⟨more, hmore⟩ := prefix_of_prefix_append hlead hrest ⟨text, htext.symm⟩
    rw [after?_eq_some_iff.mpr hmore.symm] at h
    cases h

/-! ## Where a rule fits -/

variable {rule : Rule} {b : Bool} {c : Char}

/-- Where the rule fits, it goes on with what it leaves. -/
theorem substituteFrom_of_some {replacement behind : List Char}
    (h : rule b (c :: cs) = some (replacement, (c :: cs).length - behind.length))
    (hbehind : behind <:+ cs) :
    substituteFrom rule b (c :: cs) = replacement ++ substituteFrom rule false behind := by
  have hle := hbehind.length_le
  have hdrop : cs.drop ((c :: cs).length - behind.length - 1) = behind := by
    rw [List.length_cons, Nat.sub_right_comm, Nat.add_sub_cancel]
    exact (List.suffix_iff_eq_drop.mp hbehind).symm
  rw [substituteFrom, h]
  dsimp only
  rw [hdrop]

/-- **Copying**: where the rule does not fit, nothing changes. -/
theorem substituteFrom_append
    (h : ∀ c t, c :: t <:+ cs → rule false (c :: t ++ rest) = none) :
    substituteFrom rule false (cs ++ rest) = cs ++ substituteFrom rule false rest := by
  induction cs with
  | nil => rfl
  | cons c cs ih =>
    have hc := h c cs (List.suffix_refl _)
    rw [List.cons_append] at hc
    rw [List.cons_append, substituteFrom_of_none hc,
      ih fun d t ht => h d t (ht.trans (List.suffix_cons c cs))]
    rfl

/-- A rule that fits nowhere leaves the text as it is. -/
theorem substitute_eq_self (h : ∀ b c t, c :: t <:+ cs → rule b (c :: t) = none) :
    substitute rule cs = cs := by
  cases cs with
  | nil => exact substituteFrom_nil rule true
  | cons c cs =>
    have hcs : substituteFrom rule false (cs ++ []) = cs ++ substituteFrom rule false [] := by
      refine substituteFrom_append fun d t ht => ?_
      rw [List.append_nil]
      exact h false d t (ht.trans (List.suffix_cons c cs))
    rw [List.append_nil, substituteFrom_nil, List.append_nil] at hcs
    rw [substitute, substituteFrom_of_none (h true c cs (List.suffix_refl _)), hcs]

/-- A rule that does not ask for the start of the text. -/
theorem substitute_eq_false (h : ∀ cs, rule true cs = rule false cs) (cs : List Char) :
    substitute rule cs = substituteFrom rule false cs := by
  cases cs with
  | nil => rw [substitute, substituteFrom_nil, substituteFrom_nil]
  | cons c cs => rw [substitute, substituteFrom, substituteFrom, h]

/-! ## Lines that are cut -/

variable {p : List Char → Bool}

/-- A line up to the first place where the condition is met by all that follows in it. -/
def upTo (p : List Char → Bool) : List Char → List Char
  | [] => []
  | c :: cs => if p (c :: cs) then [] else c :: upTo p cs

theorem upTo_isPrefix (p : List Char → Bool) (cs : List Char) : upTo p cs <+: cs := by
  induction cs with
  | nil => exact List.prefix_refl _
  | cons c cs ih =>
    rw [upTo]
    split
    · exact List.nil_prefix
    · exact List.cons_prefix_cons.mpr ⟨rfl, ih⟩

/-- What is cut off meets the condition. -/
theorem exists_eq_upTo_append (p : List Char → Bool) (cs : List Char) :
    ∃ t, cs = upTo p cs ++ t ∧ (t = [] ∨ p t = true) := by
  induction cs with
  | nil => exact ⟨[], rfl, .inl rfl⟩
  | cons c cs ih =>
    cases hp : p (c :: cs) with
    | true => exact ⟨c :: cs, by rw [upTo, hp, if_pos rfl, List.nil_append], .inr hp⟩
    | false =>
      obtain ⟨t, ht, hor⟩ := ih
      refine ⟨t, ?_, hor⟩
      rw [upTo, hp, if_neg Bool.false_ne_true, List.cons_append, ← ht]

/-- Nothing is cut exactly if no end of the line meets the condition. -/
theorem upTo_eq_self_iff : upTo p cs = cs ↔ ∀ c t, c :: t <:+ cs → p (c :: t) = false := by
  induction cs with
  | nil =>
    refine iff_of_true rfl fun c t h => ?_
    cases List.eq_nil_of_suffix_nil h
  | cons d ds ih =>
    rw [upTo]
    cases hd : p (d :: ds) with
    | true =>
      refine iff_of_false (by simp) fun h => ?_
      rw [h d ds (List.suffix_refl _)] at hd
      cases hd
    | false =>
      rw [if_neg Bool.false_ne_true, List.cons.injEq, and_iff_right rfl, ih]
      constructor
      · intro h c t ht
        rcases List.suffix_cons_iff.mp ht with heq | ht
        · rwa [heq]
        · exact h c t ht
      · intro h c t ht
        exact h c t (ht.trans (List.suffix_cons d ds))

theorem upTo_of_true (h : p cs = true) : upTo p cs = [] := by
  cases cs with
  | nil => rfl
  | cons c cs => rw [upTo, if_pos h]

/-- What is cut off behind a text that is kept. -/
theorem upTo_append (h : ∀ c t, c :: t <:+ cs → p (c :: t ++ rest) = false) :
    upTo p (cs ++ rest) = cs ++ upTo p rest := by
  induction cs with
  | nil => rfl
  | cons c cs ih =>
    have hc := h c cs (List.suffix_refl _)
    rw [List.cons_append] at hc
    rw [List.cons_append, upTo, hc, if_neg Bool.false_ne_true,
      ih fun d t ht => h d t (ht.trans (List.suffix_cons c cs))]
    rfl

/-- **A rule that cuts lines**: it fits where what is left of the line meets a condition, and goes on
behind that line. A line that is not cut is copied. -/
theorem substituteFrom_line {replacement behind : List Char} (hbehind : behind <:+ rest)
    (h : ∀ c t, c :: t <:+ line → rule false (c :: t ++ rest) =
      if p (c :: t) then some (replacement, (c :: t ++ rest).length - behind.length) else none) :
    substituteFrom rule false (line ++ rest) =
      if upTo p line = line then line ++ substituteFrom rule false rest
      else upTo p line ++ replacement ++ substituteFrom rule false behind := by
  induction line with
  | nil => rfl
  | cons c cs ih =>
    have hfits := h c cs (List.suffix_refl _)
    cases hp : p (c :: cs) with
    | true =>
      rw [hp, if_pos rfl, List.cons_append] at hfits
      rw [List.cons_append,
        substituteFrom_of_some hfits (hbehind.trans (List.suffix_append cs rest)), upTo, hp,
        if_pos rfl, if_neg (by simp), List.nil_append]
    | false =>
      rw [hp, if_neg Bool.false_ne_true, List.cons_append] at hfits
      have hcs := ih fun d t ht => h d t (ht.trans (List.suffix_cons c cs))
      rw [List.cons_append, substituteFrom_of_none hfits, hcs, upTo, hp,
        if_neg Bool.false_ne_true]
      simp only [List.cons.injEq, true_and]
      split <;> rfl

/-! ## Templates -/

/-- A text without references: filled as a template, it stays as it is. -/
def IsPlain (cs : List Char) : Prop := ∀ parts, expand parts cs = cs

section Expand

variable {name behind tail : List Char} {mark : Char}

/-- Only text without the mark cannot be split. -/
theorem splitOnce_eq_none_iff : splitOnce mark cs = none ↔ mark ∉ cs := by
  constructor
  · intro h hmem
    obtain ⟨front, rest, rfl, hfront⟩ := List.eq_append_cons_of_mem hmem
    rw [splitOnce_append hfront] at h
    cases h
  · intro h
    rw [← Option.not_isSome_iff_eq_none, Option.isSome_iff_exists]
    rintro ⟨⟨front, rest⟩, hparts⟩
    obtain ⟨rfl, -⟩ := splitOnce_eq_some_iff.mp hparts
    exact h (by simp)

/-- A name in braces refers to a part. -/
theorem expand_braced (h : splitOnce '\x7d' cs = some (name, behind))
    (parts : List (List Char)) :
    expand parts ('$' :: '\x7b' :: cs) = referenced parts name ++ expand parts behind := by
  rw [expand, if_neg (by simp)]
  split
  · rename_i found heq
    rw [h] at heq
    cases heq
    rfl
  · rename_i heq
    rw [h] at heq
    cases heq

/-- A brace that is not closed is no reference. -/
theorem expand_unclosed (h : splitOnce '\x7d' cs = none) (parts : List (List Char)) :
    expand parts ('$' :: '\x7b' :: cs) = '$' :: expand parts ('\x7b' :: cs) := by
  rw [expand, if_neg (by simp)]
  split
  · rename_i heq
    rw [h] at heq
    cases heq
  · rfl

section Otherwise

variable (hdollar : ∀ rest, cs = '$' :: rest → False) (hbrace : ∀ rest, cs = '\x7b' :: rest → False)
include hdollar hbrace

/-- A dollar sign without a name stands for itself. -/
theorem expand_unnamed (h : cs.takeWhile isNameChar = []) (parts : List (List Char)) :
    expand parts ('$' :: cs) = '$' :: expand parts cs := by
  rw [expand, if_neg (by simp)]
  · exact if_pos h
  · exact hdollar
  · exact hbrace

/-- A name without braces goes as far as its characters do. -/
theorem expand_named (h : cs.takeWhile isNameChar ≠ []) (parts : List (List Char)) :
    expand parts ('$' :: cs) =
      referenced parts (cs.takeWhile isNameChar) ++ expand parts (cs.dropWhile isNameChar) := by
  rw [expand, if_neg (by simp)]
  · exact if_neg h
  · exact hdollar
  · exact hbrace

end Otherwise

/-- A reference in braces. -/
theorem expand_reference (h : '\x7d' ∉ name) (parts : List (List Char)) (cs : List Char) :
    expand parts ('$' :: '\x7b' :: (name ++ '\x7d' :: cs)) =
      referenced parts name ++ expand parts cs :=
  expand_braced (splitOnce_append h cs) parts

/-- Without dollar signs a text has no references. -/
theorem isPlain_of_notMem (h : '$' ∉ cs) : IsPlain cs := by
  intro parts
  induction cs with
  | nil => exact expand_nil parts
  | cons c cs ih =>
    obtain ⟨hc, hcs⟩ := not_or.mp (mt List.mem_cons.mpr h)
    rw [expand_cons (Ne.symm hc), ih hcs]

theorem head_append_ne {d : Char} (hcs : ∀ rest, cs = d :: rest → False) (htail : d ∉ tail.head?) :
    ∀ rest, cs ++ tail = d :: rest → False := by
  intro rest heq
  cases cs with
  | nil => exact htail (by rw [← List.nil_append tail, heq]; rfl)
  | cons c cs => exact hcs cs (by rw [(List.cons.inj heq).1])

/-- **What no reference can go on with** is filled on its own. -/
theorem expand_append
    (hhead : ∀ c ∈ tail.head?, c ≠ '$' ∧ c ≠ '\x7b' ∧ isNameChar c = false)
    (hclose : '\x7d' ∉ tail) (parts : List (List Char)) (cs : List Char) :
    expand parts (cs ++ tail) = expand parts cs ++ expand parts tail := by
  have hdollars : '$' ∉ tail.head? := fun h => (hhead _ h).1 rfl
  have hbraces : '\x7b' ∉ tail.head? := fun h => (hhead _ h).2.1 rfl
  have hname : ∀ c ∈ tail.head?, isNameChar c = false := fun c hc => (hhead c hc).2.2
  induction cs using expand.induct with
  | case1 => rw [expand_nil, List.nil_append, List.nil_append]
  | case2 c cs hc ih =>
    rw [List.cons_append, expand_cons hc, expand_cons hc, ih, List.cons_append]
  | case3 c hc rest ih =>
    obtain rfl := not_not.mp hc
    rw [List.cons_append, List.cons_append, expand_dollars, expand_dollars, ih, List.cons_append]
  | case4 c hc rest name behind hsome ih =>
    obtain rfl := not_not.mp hc
    obtain ⟨rfl, hfront⟩ := splitOnce_eq_some_iff.mp hsome
    have hmore : '$' :: '\x7b' :: (name ++ '\x7d' :: behind) ++ tail =
        '$' :: '\x7b' :: (name ++ '\x7d' :: (behind ++ tail)) := by simp
    rw [hmore, expand_reference hfront, expand_reference hfront, ih, List.append_assoc]
  | case5 c hc rest hnone ih =>
    obtain rfl := not_not.mp hc
    have hmore : splitOnce '\x7d' (rest ++ tail) = none := by
      rw [splitOnce_eq_none_iff, List.mem_append, not_or]
      exact ⟨splitOnce_eq_none_iff.mp hnone, hclose⟩
    rw [List.cons_append] at ih
    rw [List.cons_append, List.cons_append, expand_unclosed hmore, expand_unclosed hnone, ih]
    rfl
  | case6 c hc cs hdollar hbrace name hempty ih =>
    obtain rfl := not_not.mp hc
    have hempty' : (cs ++ tail).takeWhile isNameChar = [] := by
      rwa [takeWhile_append_of_head hname]
    rw [List.cons_append, expand_unnamed (head_append_ne hdollar hdollars)
      (head_append_ne hbrace hbraces) hempty', expand_unnamed hdollar hbrace hempty, ih,
      List.cons_append]
  | case7 c hc cs hdollar hbrace name hne ih =>
    obtain rfl := not_not.mp hc
    have hne' : (cs ++ tail).takeWhile isNameChar ≠ [] := by
      rwa [takeWhile_append_of_head hname]
    rw [List.cons_append, expand_named (head_append_ne hdollar hdollars)
      (head_append_ne hbrace hbraces) hne', expand_named hdollar hbrace hne,
      takeWhile_append_of_head hname, dropWhile_append_of_head hname, ih, List.append_assoc]

/-! ## What a template loses -/

/-- What stands behind the last line feed. -/
def lastLine : List Char → List Char
  | [] => []
  | c :: cs => if '\n' ∈ c :: cs then lastLine cs else c :: cs

theorem lastLine_of_notMem (h : '\n' ∉ cs) : lastLine cs = cs := by
  cases cs with
  | nil => rfl
  | cons c cs => rw [lastLine, if_neg h]

/-- In front of a last line, nothing counts. -/
theorem lastLine_append_of_eq_nil (h : lastLine cs = []) (rest : List Char) :
    lastLine (cs ++ rest) = lastLine rest := by
  induction cs with
  | nil => rfl
  | cons c cs ih =>
    rw [lastLine] at h
    split_ifs at h with hfeed
    have hmore : '\n' ∈ c :: (cs ++ rest) := List.mem_append_left rest hfeed
    rw [List.cons_append, lastLine, if_pos hmore, ih h]

/-- What stands before a line feed is not in the last line. -/
theorem lastLine_append_feed (cs rest : List Char) :
    lastLine (cs ++ '\n' :: rest) = lastLine rest := by
  have hfeed : lastLine (cs ++ ['\n']) = [] := by
    induction cs with
    | nil => rfl
    | cons c cs ih => rw [List.cons_append, lastLine, if_pos (by simp), ih]
  rw [← lastLine_append_of_eq_nil hfeed rest, List.append_assoc]
  rfl

/-- A character more in front brings at most itself into the last line. -/
theorem count_lastLine_cons_le (mark c : Char) (cs : List Char) :
    (lastLine (c :: cs)).count mark ≤ (lastLine cs).count mark + [c].count mark := by
  rw [lastLine]
  split_ifs with hfeed
  · omega
  · rw [lastLine_of_notMem fun h => hfeed (List.mem_cons_of_mem c h), ← List.singleton_append,
      List.count_append, Nat.add_comm]

/-- A reference leaves no last line of its own if none of the parts does. -/
theorem lastLine_referenced (hparts : ∀ part ∈ parts, lastLine part = []) (name : List Char) :
    lastLine (referenced parts name) = [] := by
  rw [referenced]
  cases h : (Numeral.nat? 18446744073709551615 name).bind fun i => parts[i]? with
  | none => rfl
  | some part =>
    obtain ⟨i, -, hi⟩ := Option.bind_eq_some_iff.mp h
    exact hparts part (List.mem_of_getElem? hi)

/-- Filled with some parts, a text that is not plain has fewer dollar signs behind its last line
feed than before, and a plain one has no more. -/
def Dwindles (parts : List (List Char)) (cs : List Char) : Prop :=
  (lastLine (expand parts cs)).count '$' ≤ cs.count '$' ∧
    (IsPlain cs ∨ (lastLine (expand parts cs)).count '$' < cs.count '$')

/-- A character that is kept. -/
theorem Dwindles.kept (hkept : ∀ parts, expand parts (c :: cs) = c :: expand parts cs)
    (h : Dwindles parts cs) : Dwindles parts (c :: cs) := by
  obtain ⟨hle, hlt⟩ := h
  have hcons := count_lastLine_cons_le '$' c (expand parts cs)
  have hcount : (c :: cs).count '$' = [c].count '$' + cs.count '$' := by
    rw [← List.singleton_append, List.count_append]
  rw [Dwindles, hkept parts, hcount]
  refine ⟨by omega, hlt.imp (fun hplain parts => ?_) fun hlt => by omega⟩
  rw [hkept parts, hplain parts]

/-- A reference that is filled. -/
theorem Dwindles.filled {reference : List Char} (hreference : lastLine reference = [])
    (heq : expand parts cs = reference ++ expand parts behind)
    (hcount : behind.count '$' < cs.count '$') (h : Dwindles parts behind) : Dwindles parts cs := by
  have hle := h.1
  rw [Dwindles, heq, lastLine_append_of_eq_nil hreference]
  exact ⟨by omega, .inr (by omega)⟩

/-- **A text that is not plain** loses dollar signs when it is filled with parts that end with a
line feed or are empty. -/
theorem dwindles (hparts : ∀ part ∈ parts, lastLine part = []) (cs : List Char) :
    Dwindles parts cs := by
  induction cs using expand.induct with
  | case1 => exact ⟨by rw [expand_nil]; rfl, .inl expand_nil⟩
  | case2 c cs hc ih => exact ih.kept fun parts => expand_cons hc parts cs
  | case3 c hc rest ih =>
    obtain rfl := not_not.mp hc
    have hle := ih.1
    have hcons := count_lastLine_cons_le '$' '$' (expand parts rest)
    have hone : ['$'].count '$' = 1 := rfl
    rw [Dwindles, expand_dollars, List.count_cons_self, List.count_cons_self]
    exact ⟨by omega, .inr (by omega)⟩
  | case4 c hc rest name behind hsome ih =>
    obtain rfl := not_not.mp hc
    obtain ⟨rfl, hfront⟩ := splitOnce_eq_some_iff.mp hsome
    refine ih.filled (lastLine_referenced hparts name) (expand_reference hfront parts behind) ?_
    have hle : behind.count '$' ≤ ('\x7b' :: (name ++ '\x7d' :: behind)).count '$' :=
      (((List.sublist_cons_self _ behind).trans (List.sublist_append_right name _)).trans
        (List.sublist_cons_self _ _)).count_le '$'
    rw [List.count_cons_self]
    omega
  | case5 c hc rest hnone ih =>
    obtain rfl := not_not.mp hc
    exact ih.kept (expand_unclosed hnone)
  | case6 c hc cs hdollar hbrace name hempty ih =>
    obtain rfl := not_not.mp hc
    exact ih.kept (expand_unnamed hdollar hbrace hempty)
  | case7 c hc cs hdollar hbrace name hne ih =>
    obtain rfl := not_not.mp hc
    refine ih.filled (lastLine_referenced hparts _) (expand_named hdollar hbrace hne parts) ?_
    have hle := (List.dropWhile_sublist (l := cs) isNameChar).count_le '$'
    rw [List.count_cons_self]
    omega

end Expand

end Tabletop.Text
