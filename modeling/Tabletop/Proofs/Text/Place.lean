import Tabletop.Cursor
import Tabletop.Dice.Text
import Tabletop.Expression.Text
import Tabletop.Measure.Text
import Tabletop.Modifier.Text

/-!
# Readers keep their place

A cursor stands at a byte of its text, and what it has not read yet is only defined at a
**boundary**, where no character is cut in two.

* seeking a boundary gets there, and leaves the characters behind it unread (`Cursor.position_seek`,
  `Cursor.rest_seek`);
* a strict reader **keeps its place** (`Reader.Strict.keepsPlace`): where it fails the cursor is what
  it was, and where it succeeds the cursor stands at a later boundary of the text;
* **all readers of values** do, however many forms they try one inside the other
  (`Reader.keepsPlace_values`). So the loops over them are over after as many **rounds** as there are
  characters left, at most.
-/

namespace Tabletop

open Text

/-! ## Boundaries -/

namespace Text

/-- The first `n` bytes of the text are whole characters. -/
def IsBoundary (text : List Char) (n : Nat) : Prop :=
  ∃ before after, text = before ++ after ∧ utf8Size before = n

theorem utf8Size_cons (c : Char) (cs : List Char) :
    utf8Size (c :: cs) = c.utf8Size + utf8Size cs := rfl

theorem utf8Size_append (cs ds : List Char) : utf8Size (cs ++ ds) = utf8Size cs + utf8Size ds := by
  induction cs with
  | nil => exact (Nat.zero_add _).symm
  | cons c cs ih => rw [List.cons_append, utf8Size_cons, utf8Size_cons, ih, Nat.add_assoc]

/-- Every character takes a byte at least. -/
theorem length_le_utf8Size (cs : List Char) : cs.length ≤ utf8Size cs := by
  induction cs with
  | nil => exact Nat.le_refl 0
  | cons c cs ih =>
    have hpos := c.utf8Size_pos
    rw [List.length_cons, utf8Size_cons]
    omega

end Text

namespace Cursor

/-- **A place** is as many bytes on as the text before it has. -/
theorem dropBytes_append (before after : List Char) :
    dropBytes (utf8Size before) (before ++ after) = after := by
  induction before with
  | nil =>
    change dropBytes 0 after = after
    rw [dropBytes]
  | cons c cs ih =>
    have hpos := c.utf8Size_pos
    obtain ⟨n, hn⟩ : ∃ n, utf8Size (c :: cs) = n + 1 :=
      ⟨utf8Size (c :: cs) - 1, by rw [utf8Size_cons]; omega⟩
    have hleft : n + 1 - c.utf8Size = utf8Size cs := by
      rw [← hn, utf8Size_cons]
      omega
    rw [hn, List.cons_append, dropBytes, hleft, ih]

/-- **Seeking a boundary** leaves what stands behind it unread. -/
theorem rest_seek (before after : List Char) :
    ((ofText (before ++ after)).seek (utf8Size before)).rest = after :=
  dropBytes_append before after

/-- **Seeking a boundary** gets there. -/
theorem position_seek {text : List Char} {n : Nat} (h : IsBoundary text n) :
    ((ofText text).seek n).position = n := by
  obtain ⟨before, after, rfl, rfl⟩ := h
  rw [position, rest_seek]
  change utf8Size (before ++ after) - utf8Size after = utf8Size before
  rw [utf8Size_append]
  omega

end Cursor

/-! ## Readers and their places -/

namespace Reader

variable {α σ : Type}

/-- **A reader keeps its place.** Started at any boundary of any text, it fails and the cursor is what
it was, or it succeeds and the cursor stands at a later boundary of that text. -/
def KeepsPlace (r : Reader α) : Prop :=
  ∀ (text : List Char) (n : Nat), IsBoundary text n →
    match ((Cursor.ofText text).seek n).run r with
    | (none, c) => c = (Cursor.ofText text).seek n ∧ c.position = n
    | (some _, c) =>
      c = (Cursor.ofText text).seek c.position ∧ n < c.position ∧
        c.position ≤ utf8Size text ∧ IsBoundary text c.position

/-- A strict reader keeps its place. -/
theorem Strict.keepsPlace {r : Reader α} (h : r.Strict) : r.KeepsPlace := by
  rintro text n hn
  have hplace := Cursor.position_seek hn
  obtain ⟨before, after, rfl, rfl⟩ := hn
  have hrest := Cursor.rest_seek before after
  unfold Cursor.run
  rcases h after with hnone | ⟨a, rest, hsome, ⟨taken, rfl⟩, hshorter⟩
  · -- the text behind the boundary is given back as it was
    generalize (Cursor.ofText (before ++ after)).seek (utf8Size before) = c at hplace hrest ⊢
    subst hrest
    rw [hnone]
    exact ⟨rfl, hplace⟩
  · rw [hrest, hsome]
    have hposition : utf8Size (before ++ (taken ++ rest)) - utf8Size rest =
        utf8Size (before ++ taken) := by
      rw [← List.append_assoc, utf8Size_append _ rest]
      omega
    have htaken : 0 < utf8Size taken := by
      have hsize := length_le_utf8Size taken
      rw [List.length_append] at hshorter
      omega
    dsimp only [Cursor.position, Cursor.seek, Cursor.ofText]
    rw [hposition, ← List.append_assoc, Cursor.dropBytes_append, utf8Size_append _ rest,
      utf8Size_append before taken]
    exact ⟨rfl, by omega, by omega, before ++ taken, rest, rfl, utf8Size_append before taken⟩

/-! ## Loops -/

/-- So many rounds, at most, of a loop that goes on for as long as its step reads something. -/
def rounds (step : σ → Reader σ) : Nat → σ → List Char → σ × List Char
  | 0, s, cs => (s, cs)
  | n + 1, s, cs =>
    match step s cs with
    | (some t, rest) => rounds step n t rest
    | (none, _) => (s, cs)

/-- A round that reads nothing is the last one. -/
theorem rounds_of_none {step : σ → Reader σ} {s : σ} {cs rest : List Char}
    (h : step s cs = (none, rest)) (n : Nat) : rounds step n s cs = (s, cs) := by
  cases n with
  | zero => rfl
  | succ n => rw [rounds, h]

/-- A round that reads something is followed by the others. -/
theorem rounds_of_some {step : σ → Reader σ} {s t : σ} {cs rest : List Char}
    (h : step s cs = (some t, rest)) (n : Nat) :
    rounds step (n + 1) s cs = rounds step n t rest := by
  rw [rounds, h]

end Reader

namespace Measure

variable {k : Kind}

/-- A round of the loop that reads a measure: a pair is taken off the text and given. -/
def takePair (m : Measure k) : Reader (Measure k) := fun cs =>
  match k.family.readPair m.set cs with
  | (some (amount, index, unit), rest) => (some (m.give amount index unit), rest)
  | (none, _) => (none, cs)

/-- **The loop over pairs** is over when every character left had its round. -/
theorem readOnto_eq_rounds (m : Measure k) (cs : List Char) {n : Nat} (hn : cs.length ≤ n) :
    m.readOnto cs = Reader.rounds takePair n m cs := by
  induction m, cs using readOnto.induct generalizing n with
  | case1 m cs rest hread =>
    have hstep : m.takePair cs = (none, cs) := by rw [takePair, hread]
    rw [readOnto_of_none hread, Reader.rounds_of_none hstep]
  | case2 m cs amount index unit rest hread ih =>
    have hstep : m.takePair cs = (some (m.give amount index unit), rest) := by
      rw [takePair, hread]
    have hshorter := (k.family.strict_readPair m.set).lt_of_eq hread
    obtain ⟨n, rfl⟩ := Nat.exists_eq_add_one_of_ne_zero (show n ≠ 0 by omega)
    have hrest : rest.length ≤ n := by omega
    rw [readOnto_of_some hread, Reader.rounds_of_some hstep, ih hrest]

end Measure

namespace Bonus

/-- A step of the recursion that reads a modifier: a link is taken off the text and put last. -/
def takeLink (links : List Bonus) : Reader (List Bonus) := fun cs =>
  match read cs with
  | (some b, rest) => (some (links ++ [b]), rest)
  | (none, _) => (none, cs)

/-- Behind any links, reading all the rest goes round by round. -/
theorem append_readAll_eq_rounds (links : List Bonus) (cs : List Char) {n : Nat}
    (hn : cs.length ≤ n) :
    (links ++ (readAll cs).1, (readAll cs).2) = Reader.rounds takeLink n links cs := by
  induction cs using readAll.induct generalizing links n with
  | case1 cs rest hread =>
    have hstep : takeLink links cs = (none, cs) := by rw [takeLink, hread]
    rw [readAll_of_none hread, Reader.rounds_of_none hstep, List.append_nil]
  | case2 cs b rest hread bs behind hall ih =>
    have hstep : takeLink links cs = (some (links ++ [b]), rest) := by rw [takeLink, hread]
    have hshorter := strict_read.lt_of_eq hread
    obtain ⟨n, rfl⟩ := Nat.exists_eq_add_one_of_ne_zero (show n ≠ 0 by omega)
    have hrest : rest.length ≤ n := by omega
    rw [readAll_of_some hread, Reader.rounds_of_some hstep, ← ih (links ++ [b]) hrest,
      List.append_assoc, List.singleton_append]

/-- **The recursion over links** is over when every character left had its turn. -/
theorem readAll_eq_rounds (cs : List Char) {n : Nat} (hn : cs.length ≤ n) :
    readAll cs = Reader.rounds takeLink n [] cs :=
  append_readAll_eq_rounds [] cs hn

end Bonus

namespace Reader

/-- **All readers of values keep their place**, and the loops among them are over after as many rounds
as there are characters left. -/
theorem keepsPlace_values :
    int.KeepsPlace ∧ (∀ c, (char c).KeepsPlace) ∧ (∀ words, (longest words).KeepsPlace) ∧
      KeepsPlace Rational.read ∧ KeepsPlace Dice.read ∧ (∀ k, KeepsPlace (Measure.read k)) ∧
      KeepsPlace Modifier.read ∧ KeepsPlace Expression.read ∧
      (∀ (k : Kind) (m : Measure k) (cs : List Char),
        m.readOnto cs = rounds Measure.takePair cs.length m cs) ∧
      ∀ cs, Bonus.readAll cs = rounds Bonus.takeLink cs.length [] cs := by
  refine ⟨strict_int.keepsPlace, fun c => (strict_char c).keepsPlace,
    fun words => (strict_longest words).keepsPlace, Rational.strict_read.keepsPlace,
    Dice.strict_read.keepsPlace, fun k => (Measure.strict_read k).keepsPlace,
    Modifier.strict_read.keepsPlace, Expression.strict_read.keepsPlace, ?_, ?_⟩
  · intro k m cs
    exact m.readOnto_eq_rounds cs (Nat.le_refl _)
  · intro cs
    exact Bonus.readAll_eq_rounds cs (Nat.le_refl _)

end Reader

end Tabletop
