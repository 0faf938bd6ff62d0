import Tabletop.Proofs.Expression.Grammar
import Tabletop.Proofs.Expression.Order

/-!
# Expressions read back from their text

An expression is written without the arguments that have their default, without a divisor of one,
and with a text that may say anything. Is it found again in what is written?

* The numbers of a **written** expression are written as rows of digits (`IsArgument.isRow`), and
  those of a call as arguments (`arguments_closing`).
* Thus its text is **a body in brackets** (`isText_of_call`, `isText_of_factor`, `isText_of_equal`),
  of the same expression, since only defaults were left out.

As whatever is read is written, an expression is read from its own text **exactly if it is read from
any** (`read_back_iff_parsed`).
-/

namespace Tabletop.Expression

open Text Numeral

variable {ds cs body : List Char} {n : Int} {ns : List Int} {e : Expression}

/-! ## Numbers that are written -/

/-- An argument is written as a row of digits. -/
theorem IsArgument.isRow (h : IsArgument n) : IsRow (plain n).toList n := by
  have hplain : (plain n).toList = digits n.natAbs := by
    rw [toList_plain, if_neg (Int.not_lt.mpr h.nonneg), List.nil_append]
  rw [hplain]
  refine ⟨areDigits_digits _, ?_, h.fits⟩
  rw [value_digits, Int.natAbs_of_nonneg h.nonneg]

theorem IsRow.notMem_feed (h : IsRow ds n) : '\n' ∉ ds := h.notMem (by decide)

theorem IsRow.trimStart_append (h : IsRow ds n) (cs : List Char) :
    trimStart (ds ++ cs) = ds ++ cs := by
  obtain ⟨d, rest, rfl⟩ := List.exists_cons_of_ne_nil h.digits.ne_nil
  exact trimStart_cons (isBlank_of_isDigit (h.digits.isDigit d List.mem_cons_self)) _

/-- What follows the first argument, up to the parenthesis. -/
def closing : List Int → List Char
  | [] => [')']
  | n :: ns => ',' :: ' ' :: ((plain n).toList ++ closing ns)

theorem furtherArguments_eq (ns : List Int) : furtherArguments ns = closing ns ++ [']'] := by
  induction ns with
  | nil => rfl
  | cons n ns ih => simp [furtherArguments, closing, ih]

theorem getLast?_closing (ns : List Int) : (closing ns).getLast? = some ')' := by
  induction ns with
  | nil => rfl
  | cons n ns ih => simp [closing, List.getLast?_cons, List.getLast?_append, ih]

theorem notMem_feed_closing (hns : ∀ n ∈ ns, IsArgument n) : '\n' ∉ closing ns := by
  induction ns with
  | nil => decide
  | cons n ns ih =>
    obtain ⟨hn, hns⟩ := List.forall_mem_cons.mp hns
    simp [closing, hn.isRow.notMem_feed, ih hns]

/-- Arguments that are written one after the other are arguments. -/
theorem arguments_closing (hn : IsArgument n) (hns : ∀ n ∈ ns, IsArgument n) :
    Arguments ((plain n).toList ++ closing ns) (n :: ns) := by
  induction ns generalizing n with
  | nil => exact .last hn.isRow
  | cons m ns ih =>
    obtain ⟨hm, hns⟩ := List.forall_mem_cons.mp hns
    refine .more hn.isRow ?_
    rw [trimStart_space, hm.isRow.trimStart_append]
    exact ih hm hns

/-! ## What is written -/

/-- The text of an expression is a body in brackets. -/
def IsText (e : Expression) : Prop :=
  ∃ body, e.text.toList = '[' :: (body ++ [']']) ∧ Body (trim (body.filter (· ≠ '\n'))) e

/-- Nothing is taken from a body of one line whose ends are visible. -/
theorem isText_of_body (htext : e.text.toList = '[' :: (body ++ [']'])) (hfeed : '\n' ∉ body)
    (hfirst : ∀ c ∈ body.head?, isBlank c = false) (hlast : ∀ c ∈ body.getLast?, isBlank c = false)
    (h : Body body e) : e.IsText := by
  refine ⟨body, htext, ?_⟩
  rw [List.filter_eq_self.mpr (ne_feed_of_notMem hfeed), trim_of_ends hfirst hlast]
  exact h

theorem notMem_feed_head {head : String} (h : e.call? = some (head, n, ns)) :
    '\n' ∉ head.toList := by
  cases e with
  | magicArmor plus =>
    cases h
    decide
  | magicWeapon plus =>
    cases h
    decide
  | magicItem item spellLevel casterLevel material xp =>
    cases h
    cases item <;> decide
  | _ => cases h

theorem visible_head {head : String} (h : e.call? = some (head, n, ns)) :
    ∀ c ∈ head.toList.head?, isBlank c = false := by
  intro c hc
  cases e with
  | magicArmor plus =>
    cases h
    cases hc
    decide
  | magicWeapon plus =>
    cases h
    cases hc
    decide
  | magicItem item spellLevel casterLevel material xp =>
    cases h
    cases item <;> cases hc <;> decide
  | _ => cases h

/-- **A call** is written as a body. -/
theorem isText_of_call {head : String} (hcall : e.call? = some (head, n, ns))
    (hn : IsArgument n) (hns : ∀ n ∈ ns, IsArgument n)
    (h : Body (head.toList ++ '(' :: ((plain n).toList ++ closing ns)) e) : e.IsText := by
  refine isText_of_body ?_ ?_ ?_ ?_ h
  · rw [text_of_call hcall, toList_callText, furtherArguments_eq]
    simp
  · simp [notMem_feed_head hcall, hn.isRow.notMem_feed, notMem_feed_closing hns]
  · intro c hc
    rw [List.head?_append] at hc
    rcases Option.or_eq_some_iff.mp hc with hc | ⟨-, hc⟩
    · exact visible_head hcall c hc
    · cases hc
      decide
  · intro c hc
    have hlast : (head.toList ++ '(' :: ((plain n).toList ++ closing ns)).getLast? = some ')' := by
      simp [List.getLast?_append, List.getLast?_cons, getLast?_closing]
    cases hlast.symm.trans hc
    decide

theorem length_itemArguments_le (spellLevel casterLevel material xp : Int) :
    (itemArguments spellLevel casterLevel material xp).tail.length ≤ 3 := by
  simp only [itemArguments]
  split_ifs <;> simp

/-- The arguments of an item are written as rows of digits if its numbers are arguments. -/
theorem isArgument_itemArguments (spellLevel : Int) {casterLevel material xp : Int}
    (hcaster : IsArgument casterLevel) (hmaterial : IsArgument material) (hxp : IsArgument xp) :
    ∀ n ∈ (itemArguments spellLevel casterLevel material xp).tail, IsArgument n := by
  simp only [itemArguments]
  split_ifs <;> simp [hcaster, hmaterial, hxp]

/-- Arguments that are left out have their default. -/
theorem itemWith_itemArguments (item : MagicItem) (spellLevel casterLevel material xp : Int) :
    itemWith item spellLevel (itemArguments spellLevel casterLevel material xp).tail =
      .magicItem item spellLevel casterLevel material xp := by
  have hcall := ofCall_eq (e := .magicItem item spellLevel casterLevel material xp) rfl
  rw [ofCall_name] at hcall
  exact Option.some.inj hcall

/-- What follows the multiplier, up to the bracket. -/
def divisorText (divide : Int) : List Char :=
  if divide = 1 then [] else '/' :: (plain divide).toList

theorem factorEnd_eq (divide : Int) : factorEnd divide = divisorText divide ++ [']'] := by
  simp only [factorEnd, divisorText]
  split <;> rfl

theorem divisor_divisorText (h : IsArgument n) : Divisor (divisorText n) n := by
  simp only [divisorText]
  split
  · rename_i hone
    exact hone ▸ .none
  · refine .some (trimStart_cons (by decide) _) ?_
    have hstart := h.isRow.trimStart_append []
    rw [List.append_nil] at hstart
    rw [hstart]
    exact h.isRow

theorem notMem_feed_divisorText (h : IsArgument n) : '\n' ∉ divisorText n := by
  simp only [divisorText]
  split
  · exact List.not_mem_nil
  · simp [h.isRow.notMem_feed]

theorem endsInDigit_factor {multiply divide : Int} (hmultiply : IsArgument multiply)
    (hdivide : IsArgument divide) :
    EndsInDigit ((plain multiply).toList ++ divisorText divide) := by
  simp only [divisorText]
  split
  · rw [List.append_nil]
    exact hmultiply.isRow.digits.endsInDigit
  · exact (hdivide.isRow.digits.endsInDigit.append ['/']).append _

/-- **A factor** is written as a body, without a divisor of one. -/
theorem isText_of_factor {multiply divide : Int} (hmultiply : IsArgument multiply)
    (hdivide : IsArgument divide) (hzero : divide ≠ 0) : (factor multiply divide).IsText := by
  have hstart : trimStart (' ' :: ((plain multiply).toList ++ divisorText divide)) =
      (plain multiply).toList ++ divisorText divide := by
    rw [trimStart_space, hmultiply.isRow.trimStart_append]
  refine isText_of_body ?_ ?_ ?_ ?_
    (.factor hstart hmultiply.isRow (divisor_divisorText hdivide) hzero)
  · rw [toList_text_factor, factorEnd_eq]
    simp
  · simp [hmultiply.isRow.notMem_feed, notMem_feed_divisorText hdivide]
  · rintro c ⟨⟩
    decide
  · intro c hc
    obtain ⟨front, d, heq, hdigit⟩ := (endsInDigit_factor hmultiply hdivide).append ['*', ' ']
    have hlast : ('*' :: ' ' :: ((plain multiply).toList ++ divisorText divide)).getLast? =
        some d := by
      rw [show '*' :: ' ' :: ((plain multiply).toList ++ divisorText divide) = front ++ [d] from heq,
        List.getLast?_concat]
    cases hlast.symm.trans hc
    exact isBlank_of_isDigit hdigit

/-- **A replacement** is written as a body; the blanks around its text are trimmed. -/
theorem isText_of_equal {source : String} (hfeed : '\n' ∉ source.toList)
    (htrim : trim source.toList = source.toList) : (equal source).IsText := by
  have hbody : '\n' ∉ '=' :: ' ' :: source.toList := by simp [hfeed]
  have hsource : trimmed (trimEnd (' ' :: source.toList)) = source := by
    rw [trimmed, trim_trimEnd, trim, trimStart_space, ← trim, htrim, String.ofList_toList]
  refine ⟨'=' :: ' ' :: source.toList, toList_text_equal source, ?_⟩
  rw [List.filter_eq_self.mpr (ne_feed_of_notMem hbody), trim_cons (by decide)]
  have h := Body.equal (trimEnd (' ' :: source.toList))
  rwa [hsource] at h

/-! ## Read back -/

/-- What can be written is written as a text of the grammar. -/
theorem IsWritten.isText (h : e.IsWritten) : e.IsText := by
  cases e with
  | magicArmor plus => exact isText_of_call rfl h (List.forall_mem_nil _) (.magicArmor h.isRow)
  | magicWeapon plus => exact isText_of_call rfl h (List.forall_mem_nil _) (.magicWeapon h.isRow)
  | magicItem item spellLevel casterLevel material xp =>
    obtain ⟨⟨hspell, hcaster, hmaterial, hxp⟩, hlevel⟩ := h
    have hothers := isArgument_itemArguments spellLevel hcaster hmaterial hxp
    have hitem := itemWith_itemArguments item spellLevel casterLevel material xp
    refine isText_of_call rfl hspell hothers ?_
    rw [← hitem]
    refine .magicItem item (arguments_closing hspell hothers)
      (length_itemArguments_le spellLevel casterLevel material xp) ?_
    -- the caster level is that of the item, though it may be left out
    injection hitem with _ _ hdefault
    rw [hdefault]
    exact hlevel
  | factor multiply divide =>
    obtain ⟨hmultiply, hdivide, hzero⟩ := h
    exact isText_of_factor hmultiply hdivide hzero
  | equal source => exact isText_of_equal h.1 h.2

/-- **What can be written is read back.** -/
theorem IsWritten.parse_text (h : e.IsWritten) : parse e.text = .ok e := by
  obtain ⟨body, htext, hbody⟩ := h.isText
  refine parse_eq_ok_iff.mpr ⟨body, ?_, parseBody_eq_ok_iff.mpr hbody⟩
  rw [htext]
  exact trim_eq_self (by decide) (by decide) body

/-- **An expression is read from its own text** exactly if it is read from any text; and those are
the written ones. -/
theorem read_back_iff_parsed (e : Expression) :
    (parse e.text = .ok e ↔ ∃ source, parse source = .ok e) ∧
      (parse e.text = .ok e ↔ e.IsWritten) := by
  refine ⟨⟨fun h => ⟨e.text, h⟩, ?_⟩, isWritten_of_parse, IsWritten.parse_text⟩
  rintro ⟨source, h⟩
  exact (isWritten_of_parse h).parse_text

end Tabletop.Expression
