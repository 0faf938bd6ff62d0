import Mathlib.Tactic.MkIffOfInductiveProp
import Tabletop.Modifier.Text
import Tabletop.Proofs.Text.Marks

/-!
# Modifiers read back from their text

A chain is written as its bonuses, one after the other, and a bonus as its value, its type and its
condition in quotes. All but the value may be left out when a bonus is read, types are named by words
that other types are named by, too, and a condition may say anything. Is a chain found again in its
text?

* A **bonus behind the blanks** is read up to what stands behind it (`read_text`): the name of its
  type is no beginning of another name, behind it comes nothing or a space (`readType_name`), and a
  condition goes up to the first quote (`readCondition_conditionText`).
* So the texts of some bonuses are read **one by one, and nothing is left** (`readAll_behindText`),
  however many there are.
* What is asked of a bonus is that its value can be stored and that no quote stands in its condition.
  **IsLegible** says so; it holds of all that was ever read (`isLegible_of_readAll`), and merging
  bonuses makes no new condition (`exists_condition_of_mem_merge`).

Hence the text of a chain is read as that chain **exactly if the chain is legible**, and the chains
that were read or merged are (`parse_text_iff_legible`).
-/

namespace Tabletop

open Text Reader

namespace Bonus

variable {b : Bonus} {bs as : List Bonus} {cs rest : List Char}

/-! ## Types and conditions -/

/-- The text ends, or goes on with a space. -/
def EndsWord (cs : List Char) : Prop := ∀ c ∈ cs.head?, c = ' '

theorem endsWord_nil : EndsWord [] := by
  rintro c ⟨⟩

theorem endsWord_space (cs : List Char) : EndsWord (' ' :: cs) := by
  rintro c ⟨⟩
  rfl

/-- A word ends at a space or at the end of the text. -/
theorem EndsWord.eq_nil_or_cons (h : EndsWord cs) : cs = [] ∨ ∃ ds, cs = ' ' :: ds := by
  cases cs with
  | nil => exact .inl rfl
  | cons c ds =>
    obtain rfl := h c rfl
    exact .inr ⟨ds, rfl⟩

/-- Of all names only its own stands where a type is named. -/
theorem filter_startsWord_name (kind : BonusType) (h : EndsWord rest) :
    (BonusType.all.map BonusType.name).filter (startsWord · (kind.name.toList ++ rest)) =
      [kind.name] := by
  obtain rfl | ⟨ds, rfl⟩ := h.eq_nil_or_cons
  · cases kind <;> rfl
  · cases kind <;> rfl

theorem trimStart_name (kind : BonusType) (rest : List Char) :
    trimStart (' ' :: (kind.name.toList ++ rest)) = kind.name.toList ++ rest := by
  cases kind <;> rfl

/-- **The type** is read from its name. -/
theorem readType_name (kind : BonusType) (h : EndsWord rest) :
    readType (' ' :: (kind.name.toList ++ rest)) = (some kind, rest) := by
  have hlongest : longest (BonusType.all.map BonusType.name) (' ' :: (kind.name.toList ++ rest)) =
      (some kind.name, rest) := by
    simp only [longest, trimStart_name, filter_startsWord_name kind h]
    exact congrArg _ (List.drop_left)
  have hkind : BonusType.ofName? kind.name = some kind := by
    cases kind <;> rfl
  simp only [readType, hlongest, hkind]

/-- A condition behind a type. -/
def conditionText : Option String → List Char
  | none => []
  | some condition => ' ' :: 'i' :: 'f' :: ' ' :: '\x22' :: (condition.toList ++ ['\x22'])

theorem word_if (cs : List Char) :
    word "if" (' ' :: 'i' :: 'f' :: ' ' :: cs) = (some "if", ' ' :: cs) := rfl

/-- Where no `if` stands there is no condition. -/
theorem readCondition_eq_none (h : (trimStart cs).head? ≠ some 'i') :
    readCondition cs = (none, cs) := by
  have hword : startsWord "if" (trimStart cs) = false := by
    cases htrim : trimStart cs with
    | nil => rfl
    | cons c ds =>
      rw [htrim] at h
      have hne : ('i' == c) = false := beq_false_of_ne fun heq => h (congrArg some heq.symm)
      simp [startsWord, List.isPrefixOf, hne]
  have hnone : word "if" cs = (none, cs) := by
    simp [word, longest, longestOf, hword]
  simp only [readCondition, hnone]

/-- **The condition** is read up to its quote. -/
theorem readCondition_conditionText {condition : Option String}
    (hcondition : ∀ text ∈ condition, '\x22' ∉ text.toList)
    (hrest : (trimStart rest).head? ≠ some 'i') :
    readCondition (conditionText condition ++ rest) = (condition, rest) := by
  cases condition with
  | none => exact readCondition_eq_none hrest
  | some text =>
    have hquote : char '\x22' (' ' :: '\x22' :: (text.toList ++ '\x22' :: rest)) =
        (some '\x22', text.toList ++ '\x22' :: rest) := char_eq_some rfl
    have htext := splitOnce_append (hcondition text rfl) rest
    simp only [conditionText, List.cons_append, List.append_assoc, List.nil_append, readCondition,
      word_if, hquote, htext, String.ofList_toList]

/-! ## Bonuses -/

/-- **A legible bonus**: its value can be stored, and no quote stands in its condition. -/
@[mk_iff]
structure IsLegible (b : Bonus) : Prop where
  fits : Fits b.value
  unquoted : ∀ condition ∈ b.condition, '\x22' ∉ condition.toList

instance : DecidablePred IsLegible := fun b => decidable_of_iff _ (isLegible_iff b).symm

/-- A bonus is written as its signed value, its type and its condition. -/
theorem toList_text (b : Bonus) : b.text.toList =
    (Numeral.signed b.value).toList ++ ' ' :: (b.kind.name.toList ++ conditionText b.condition) := by
  obtain ⟨value, kind, condition⟩ := b
  cases condition <;> simp [text, baseText, conditionText]

/-- Bonuses behind another one, each behind a space. -/
def behindText (bs : List Bonus) : List Char := bs.flatMap fun b => ' ' :: b.text.toList

theorem behindText_cons (b : Bonus) (bs : List Bonus) :
    behindText (b :: bs) = ' ' :: (b.text.toList ++ behindText bs) := List.flatMap_cons

theorem endsWord_behindText (bs : List Bonus) : EndsWord (behindText bs) := by
  cases bs with
  | nil => exact endsWord_nil
  | cons b bs => exact endsWord_space _

/-- Links are written one behind the other, with a space between. -/
theorem trimStart_behindText (b : Bonus) (bs : List Bonus) :
    trimStart (behindText (b :: bs)) = b.text.toList ++ behindText bs := by
  rw [behindText_cons, trimStart_space, toList_text, List.append_assoc,
    trimStart_numeral (Numeral.denotes_signed b.value)]

/-- Behind a bonus no condition is left: what comes is nothing or a number. -/
theorem head?_trimStart_behindText (bs : List Bonus) :
    (trimStart (behindText bs)).head? ≠ some 'i' := by
  cases bs with
  | nil => rintro ⟨⟩
  | cons b bs =>
    rw [trimStart_behindText, toList_text, List.append_assoc]
    exact (Numeral.denotes_signed b.value).head?_append_ne rfl (by decide) (by decide) _

theorem endsWord_conditionText (condition : Option String) (h : EndsWord rest) :
    EndsWord (conditionText condition ++ rest) := by
  cases condition with
  | none => exact h
  | some text => exact endsWord_space _

/-- **A bonus is read** up to what stands behind it. -/
theorem read_text (hb : b.IsLegible) (hcs : trimStart cs = b.text.toList ++ behindText bs) :
    read cs = (some b, behindText bs) := by
  rw [toList_text, List.append_assoc, List.cons_append, List.append_assoc] at hcs
  have hvalue := int_signed hcs hb.fits (Numeral.endsNumeral_cons rfl _)
  have hkind := readType_name b.kind
    (endsWord_conditionText b.condition (endsWord_behindText bs))
  have hcondition := readCondition_conditionText hb.unquoted (head?_trimStart_behindText bs)
  simp only [read, hvalue, hkind, hcondition, Option.getD_some]

theorem read_nil : read [] = (none, []) := rfl

/-- **Bonuses are read one by one**, and nothing is left. -/
theorem readAll_behindText (hbs : ∀ b ∈ bs, b.IsLegible) : readAll (behindText bs) = (bs, []) := by
  induction bs with
  | nil => exact readAll_of_none read_nil
  | cons b bs ih =>
    obtain ⟨hb, hrest⟩ := List.forall_mem_cons.mp hbs
    rw [readAll_of_some (read_text hb (trimStart_behindText b bs)), ih hrest]

/-! ## What was read -/

/-- A condition that was read has no quotation mark. -/
theorem unquoted_of_readCondition {condition : String}
    (h : readCondition cs = (some condition, rest)) : '\x22' ∉ condition.toList := by
  simp only [readCondition] at h
  split at h
  · cases h
  · split at h
    · cases h
    · split at h
      · rename_i hquote
        cases h
        rw [String.toList_ofList]
        exact (splitOnce_eq_some_iff.mp hquote).2
      · cases h

/-- A bonus that was read is legible. -/
theorem isLegible_of_read (h : read cs = (some b, rest)) : b.IsLegible := by
  simp only [read] at h
  split at h
  · cases h
  · rename_i value afterValue hvalue
    obtain ⟨-, -, -, hfits, -⟩ := int_eq_some_iff.mp hvalue
    cases h
    refine ⟨hfits, ?_⟩
    intro condition hcondition
    exact unquoted_of_readCondition (Prod.ext hcondition rfl)

/-- **Links that were read are legible.** -/
theorem isLegible_of_readAll (cs : List Char) : ∀ b ∈ (readAll cs).1, b.IsLegible := by
  induction cs using readAll.induct with
  | case1 cs rest hread =>
    rw [readAll_of_none hread]
    intro b hb
    cases hb
  | case2 cs b rest hread bs behind hall ih =>
    rw [readAll_of_some hread]
    exact List.forall_mem_cons.mpr ⟨isLegible_of_read hread, ih⟩

/-- Merging makes no condition that was not there. -/
theorem exists_condition_of_mem_merge (h : b ∈ merge as bs) :
    ∃ c, (c ∈ as ∨ c ∈ bs) ∧ c.condition = b.condition := by
  fun_induction merge as bs with
  | case1 bs => exact ⟨b, .inr h, rfl⟩
  | case2 as => exact ⟨b, .inl h, rfl⟩
  | case3 a as b' bs hmeets ih =>
    rcases List.mem_cons.mp h with rfl | h
    · exact ⟨a, .inl List.mem_cons_self, rfl⟩
    · obtain ⟨c, hc, heq⟩ := ih h
      exact ⟨c, hc.imp (List.mem_cons_of_mem _) (List.mem_cons_of_mem _), heq⟩
  | case4 a as b' bs hmeets ih =>
    rcases List.mem_cons.mp h with rfl | h
    · exact ⟨b, .inl List.mem_cons_self, rfl⟩
    · obtain ⟨c, hc, heq⟩ := ih h
      exact ⟨c, hc.imp_left (List.mem_cons_of_mem _), heq⟩

end Bonus

namespace Modifier

open Bonus

variable {m n : Modifier}

/-- **A legible chain**: all values can be stored, and no quote stands in a condition. -/
def IsLegible (m : Modifier) : Prop := ∀ b ∈ m.links, b.IsLegible

instance : DecidablePred IsLegible := fun m => inferInstanceAs (Decidable (∀ b ∈ m.links, _))

/-- A chain that was read from a text, or merged from such chains where all sums can be stored. -/
inductive Gathered : Modifier → Prop
  | parsed {source : String} {m : Modifier} (h : parse source = .ok m) : Gathered m
  | added {m n : Modifier} (hm : Gathered m) (hn : Gathered n)
    (hfits : ∀ b ∈ (m.add n).links, Fits b.value) : Gathered (m.add n)

theorem toList_intercalate_texts (b : Bonus) (bs : List Bonus) :
    (String.intercalate " " ((b :: bs).map Bonus.text)).toList = b.text.toList ++ behindText bs := by
  induction bs generalizing b with
  | nil => simp [behindText]
  | cons c bs ih =>
    rw [List.map_cons, List.map_cons, String.intercalate_cons_cons, ← List.map_cons,
      String.toList_append, String.toList_append, ih, behindText_cons]
    simp

theorem toList_text (m : Modifier) :
    m.text.toList = m.first.text.toList ++ behindText m.others :=
  toList_intercalate_texts m.first m.others

/-- **A legible chain is read** from its text. -/
theorem IsLegible.parse_text (h : m.IsLegible) : parse m.text = .ok m := by
  obtain ⟨hfirst, hothers⟩ := List.forall_mem_cons.mp h
  have hstart : trimStart m.text.toList = m.first.text.toList ++ behindText m.others := by
    rw [toList_text, ← trimStart_behindText, trimStart_trimStart]
  have hall := readAll_of_some (read_text hfirst hstart)
  rw [readAll_behindText hothers] at hall
  simp only [parse, Modifier.read, hall]
  rfl

/-- A chain that was read is legible. -/
theorem isLegible_of_parse {source : String} (h : parse source = .ok m) : m.IsLegible := by
  have hlinks : (readAll source.toList).1 = m.links := by
    simp only [parse, Modifier.read] at h
    split at h
    · rename_i n rest hread
      split at h
      · cases h
        have hread := congrArg Prod.fst hread
        cases hall : (readAll source.toList).1 with
        | nil =>
          rw [hall] at hread
          cases hread
        | cons b bs =>
          rw [hall] at hread
          cases hread
          rfl
      · cases h
    · cases h
  intro b hb
  exact isLegible_of_readAll source.toList b (hlinks ▸ hb)

/-- A sum of legible modifiers is legible, if its values fit. -/
theorem IsLegible.add (hm : m.IsLegible) (hn : n.IsLegible)
    (hfits : ∀ b ∈ (m.add n).links, Fits b.value) : (m.add n).IsLegible := by
  intro b hb
  refine ⟨hfits b hb, ?_⟩
  rw [links_add] at hb
  obtain ⟨c, hc, hcondition⟩ := exists_condition_of_mem_merge hb
  rw [← hcondition]
  exact hc.elim (fun hc => (hm c hc).unquoted) fun hc => (hn c hc).unquoted

/-- **Whatever is read or merged is legible.** -/
theorem Gathered.isLegible (h : Gathered m) : m.IsLegible := by
  induction h with
  | parsed h => exact isLegible_of_parse h
  | added hm hn hfits ihm ihn => exact ihm.add ihn hfits

/-- **The text of a chain is read as that chain** exactly if all values can be stored and no quote
stands in a condition; so it is for all chains that were read or merged. -/
theorem parse_text_iff_legible :
    (∀ m : Modifier, parse m.text = .ok m ↔ m.IsLegible) ∧
      ∀ m : Modifier, Gathered m → m.IsLegible :=
  ⟨fun _ => ⟨isLegible_of_parse, IsLegible.parse_text⟩, fun _ => Gathered.isLegible⟩

/-- A condition that looks like a bonus, with a word that a condition begins with. -/
def wounded : Modifier :=
  ⟨⟨3, .naturalArmor, some "bitten if +2 armor"⟩, [⟨-1, .dodge, none⟩]⟩

/-- What hardens the skin in the same case. -/
def hardened : Modifier := ⟨⟨4, .naturalArmor, some "bitten if +2 armor"⟩, []⟩

/-- Both are read from their texts, and so is what they make together. -/
theorem parse_text_iff_legible_wounded :
    parse "+3 natural armor if \x22bitten if +2 armor\x22 -1 dodge" = .ok wounded ∧
      parse (wounded.add hardened).text = .ok (wounded.add hardened) := by
  obtain ⟨hread, hgathered⟩ := parse_text_iff_legible
  have hwounded := (hread wounded).mpr (by decide)
  have hhardened := (hread hardened).mpr (by decide)
  have htext : wounded.text = "+3 natural armor if \x22bitten if +2 armor\x22 -1 dodge" := by
    decide +kernel
  refine ⟨htext ▸ hwounded, (hread _).mpr (hgathered _ ?_)⟩
  exact .added (.parsed hwounded) (.parsed hhardened) (by decide)

end Modifier

end Tabletop
