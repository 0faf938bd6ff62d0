import Tabletop.Text.Basic
import Tabletop.Text.Letter
import Tabletop.Text.Numeral

/-!
# Readers

A reader looks at the unread text and answers what it found, if anything, together with the text
it leaves unread. Nothing in the type gives back the text of a failed attempt: that a reader does
so is its property **Strict**, which also says that a success takes at least one character.

All readers skip blanks in front of what they look for.
-/

namespace Tabletop

/-- A step over the unread text: what was read, and the text left unread. -/
abbrev Reader (α : Type) := List Char → Option α × List Char

namespace Reader

open Text

/-- A signed integer; its sign is attached to its digits, and it can be stored. -/
def int : Reader Int := fun cs =>
  let (negative, body) := Numeral.splitSign (trimStart cs)
  let ds := body.takeWhile Char.isDigit
  if ds ≠ [] ∧ Fits (Numeral.ofDigits negative ds) then
    (some (Numeral.ofDigits negative ds), body.dropWhile Char.isDigit)
  else (none, cs)

/-- The character `c`. -/
def char (c : Char) : Reader Char := fun cs =>
  match trimStart cs with
  | [] => (none, cs)
  | d :: rest => if d = c then (some c, rest) else (none, cs)

/-- Whether `word` stands at the start of the text and no letter follows it. -/
def startsWord (word : String) (cs : List Char) : Bool :=
  word.toList ≠ [] && word.toList.isPrefixOf cs &&
    !((cs.drop word.toList.length).head?.any isLetter)

/-- The longest of some words. -/
def longestOf (words : List String) : Option String :=
  words.foldl (fun best word =>
    match best with
    | none => some word
    | some found => if found.toList.length ≤ word.toList.length then some word else some found) none

/-- The longest of `words` that stands next and ends at a word boundary. -/
def longest (words : List String) : Reader String := fun cs =>
  let rest := trimStart cs
  match longestOf (words.filter (startsWord · rest)) with
  | some word => (some word, rest.drop word.toList.length)
  | none => (none, cs)

/-- The word `word`, ending at a word boundary. -/
def word (word : String) : Reader String := longest [word]

/-! ## Strict readers -/

/-- **Strict readers** either fail and give the text back, or leave a shorter end of it. -/
def Strict {α : Type} (r : Reader α) : Prop :=
  ∀ cs, r cs = (none, cs) ∨ ∃ a rest, r cs = (some a, rest) ∧ rest <:+ cs ∧ rest.length < cs.length

namespace Strict

variable {α : Type} {r : Reader α}

/-- Where a strict reader reads nothing, it consumes nothing. -/
theorem restores (h : r.Strict) {cs : List Char} (hn : (r cs).1 = none) : (r cs).2 = cs := by
  rcases h cs with hr | ⟨a, rest, hr, -⟩
  · rw [hr]
  · rw [hr] at hn; cases hn

/-- A strict reader leaves an end of the text. -/
theorem suffix (h : r.Strict) (cs : List Char) : (r cs).2 <:+ cs := by
  rcases h cs with hr | ⟨a, rest, hr, hs, -⟩
  · simp [hr]
  · rw [hr]; exact hs

theorem length_le (h : r.Strict) (cs : List Char) : (r cs).2.length ≤ cs.length :=
  (h.suffix cs).length_le

/-- Where a strict reader reads something, it consumes something. -/
theorem shorter (h : r.Strict) {cs : List Char} {a : α} (hs : (r cs).1 = some a) :
    (r cs).2.length < cs.length := by
  rcases h cs with hr | ⟨b, rest, hr, -, hl⟩
  · rw [hr] at hs; cases hs
  · rw [hr]; exact hl

/-- A success of a strict reader, as an equation, takes something off. -/
theorem lt_of_eq (h : r.Strict) {cs rest : List Char} {a : α} (hs : r cs = (some a, rest)) :
    rest.length < cs.length := by
  have hl := @shorter _ _ h cs a (by rw [hs])
  rwa [hs] at hl

end Strict

theorem splitSign_suffix (cs : List Char) : (Numeral.splitSign cs).2 <:+ cs := by
  unfold Numeral.splitSign
  split <;> simp

theorem strict_int : Strict int := by
  intro cs
  unfold int
  dsimp only
  split
  · rename_i hd
    refine Or.inr ⟨_, _, rfl, (List.dropWhile_suffix _).trans
      ((splitSign_suffix _).trans (trimStart_suffix cs)), ?_⟩
    have hb := ((splitSign_suffix (trimStart cs)).trans (trimStart_suffix cs)).length_le
    have hs := congrArg List.length
      (List.takeWhile_append_dropWhile (p := Char.isDigit)
        (l := (Numeral.splitSign (trimStart cs)).2))
    have hp := List.length_pos_iff.2 hd.1
    simp only [List.length_append] at hs
    omega
  · exact Or.inl rfl

theorem strict_char (c : Char) : Strict (char c) := by
  intro cs
  have hs := trimStart_suffix cs
  unfold char
  split
  · exact Or.inl rfl
  · rename_i d rest heq
    rw [heq] at hs
    split
    · have hl := hs.length_le
      simp only [List.length_cons] at hl
      exact Or.inr ⟨_, _, rfl, (List.suffix_cons _ _).trans hs, by omega⟩
    · exact Or.inl rfl

/-- **The longest word** is one of the words. -/
theorem longestOf_mem {words : List String} {w : String} (h : longestOf words = some w) :
    w ∈ words := by
  suffices key : ∀ (ws : List String) (best : Option String),
      ws.foldl (fun best word =>
        match best with
        | none => some word
        | some found => if found.toList.length ≤ word.toList.length then some word
          else some found) best = some w → w ∈ ws ∨ best = some w by
    simpa using key words none h
  intro ws
  induction ws with
  | nil => intro best hb; exact Or.inr hb
  | cons x xs ih =>
    intro best hb
    rcases ih _ hb with hx | hx
    · exact Or.inl (List.mem_cons_of_mem _ hx)
    · cases best with
      | none => simp only [Option.some.injEq] at hx; simp [hx]
      | some found =>
        dsimp only at hx
        split at hx
        · simp only [Option.some.injEq] at hx; simp [hx]
        · exact Or.inr hx

theorem strict_longest (words : List String) : Strict (longest words) := by
  intro cs
  have hs := trimStart_suffix cs
  unfold longest
  dsimp only
  split
  · rename_i w heq
    have hm := List.mem_filter.1 (longestOf_mem heq)
    simp only [startsWord, Bool.and_eq_true, decide_eq_true_eq] at hm
    have hp := List.length_pos_iff.2 hm.2.1.1
    have hl := (List.isPrefixOf_iff_prefix.1 hm.2.1.2).length_le
    refine Or.inr ⟨_, _, rfl, (List.drop_suffix _ _).trans hs, ?_⟩
    have := hs.length_le
    simp only [List.length_drop]
    omega
  · exact Or.inl rfl

theorem strict_word (w : String) : Strict (word w) := strict_longest [w]

end Reader

end Tabletop
