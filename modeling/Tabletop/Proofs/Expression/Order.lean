import Mathlib.Data.List.Basic
import Tabletop.Expression.Pricing
import Tabletop.Proofs.Text.Numeral

/-!
# The order of application

Expressions apply in the order of their priority and of their texts. Is that one order, whatever the
order in which they are given? It is if no two expressions share a text:

* **call?** takes apart the expressions whose text is a head with arguments; these are determined by
  the text (`callText_inj`), and the expression by them (`ofCall_eq`), although arguments that have
  their default are left out. Thus **the text determines the expression** (`text_injective`);
* hence **compare** is a total order in which only equal expressions are equal, and the same
  expressions given in any order are **sorted** into the same list (`sorted_eq_of_perm`) and applied
  to the same effect (`applyAll_eq_of_perm`).
-/

namespace Tabletop.Expression

open Numeral

/-! ## Heads with arguments -/

/-- What follows the first argument of a call. -/
def furtherArguments : List Int → List Char
  | [] => [')', ']']
  | n :: ns => ',' :: ' ' :: ((plain n).toList ++ furtherArguments ns)

theorem endsNumeral_furtherArguments (ns : List Int) : EndsNumeral (furtherArguments ns) := by
  cases ns with
  | nil => exact endsNumeral_cons (by decide) _
  | cons n ns => exact endsNumeral_cons (by decide) _

/-- Arguments are determined by their text. -/
theorem arguments_inj {ms ns : List Int} : ∀ {m n : Int},
    (plain m).toList ++ furtherArguments ms = (plain n).toList ++ furtherArguments ns →
      m = n ∧ ms = ns := by
  induction ms generalizing ns with
  | nil =>
    intro m n h
    obtain ⟨hmn, hrest⟩ :=
      plain_append_inj (endsNumeral_furtherArguments []) (endsNumeral_furtherArguments ns) h
    cases ns with
    | nil => exact ⟨hmn, rfl⟩
    | cons n' ns => exact absurd (List.cons.inj hrest).1 (by decide)
  | cons m' ms ih =>
    intro m n h
    obtain ⟨hmn, hrest⟩ := plain_append_inj (endsNumeral_furtherArguments (m' :: ms))
      (endsNumeral_furtherArguments ns) h
    cases ns with
    | nil => exact absurd (List.cons.inj hrest).1 (by decide)
    | cons n' ns =>
      obtain ⟨hhead, htail⟩ := ih (List.cons.inj (List.cons.inj hrest).2).2
      exact ⟨hmn, by rw [hhead, htail]⟩

theorem toList_intercalate_arguments (n : Int) (ns : List Int) :
    (String.intercalate ", " ((n :: ns).map plain)).toList ++ [')', ']'] =
      (plain n).toList ++ furtherArguments ns := by
  induction ns generalizing n with
  | nil => simp [furtherArguments]
  | cons m ns ih =>
    rw [List.map_cons, List.map_cons, String.intercalate_cons_cons, ← List.map_cons,
      String.toList_append, String.toList_append, List.append_assoc, ih, furtherArguments]
    simp

theorem toList_callText (head : String) (n : Int) (ns : List Int) :
    (callText head (n :: ns)).toList =
      '[' :: (head.toList ++ '(' :: ((plain n).toList ++ furtherArguments ns)) := by
  rw [← toList_intercalate_arguments]
  simp [callText]

/-- What stands in front of the first parenthesis. -/
theorem takeWhile_head {head : List Char} (h : '(' ∉ head) (rest : List Char) :
    (head ++ '(' :: rest).takeWhile (· ≠ '(') = head := by
  rw [List.takeWhile_append_of_pos, List.takeWhile_cons]
  · simp
  · intro c hc
    exact decide_eq_true fun hparen => h (hparen ▸ hc)

/-- **A call is determined by its text**, if the head has no parenthesis. -/
theorem callText_inj {h k : String} (hh : '(' ∉ h.toList) (hk : '(' ∉ k.toList) {m n : Int}
    {ms ns : List Int} (heq : callText h (m :: ms) = callText k (n :: ns)) :
    h = k ∧ m = n ∧ ms = ns := by
  have hlist := congrArg String.toList heq
  rw [toList_callText, toList_callText] at hlist
  have hinner := (List.cons.inj hlist).2
  have hhead := congrArg (List.takeWhile (· ≠ '(')) hinner
  rw [takeWhile_head hh, takeWhile_head hk] at hhead
  rw [hhead] at hinner
  have harguments := (List.cons.inj (List.append_cancel_left hinner)).2
  exact ⟨String.toList_injective hhead, arguments_inj harguments⟩

/-! ## Texts of expressions -/

/-- The arguments in the text of a magic item, without those that have their default. -/
def itemArguments (spellLevel casterLevel material xp : Int) : List Int :=
  if xp ≠ 0 then [spellLevel, casterLevel, material, xp]
  else if material ≠ 0 then [spellLevel, casterLevel, material]
  else if casterLevel = MagicItem.minimumCasterLevel spellLevel then [spellLevel]
  else [spellLevel, casterLevel]

/-- The head and the arguments in the text of an expression that has them. -/
def call? : Expression → Option (String × Int × List Int)
  | .magicArmor plus => some ("magic armor", plus, [])
  | .magicWeapon plus => some ("magic weapon", plus, [])
  | .magicItem item spellLevel casterLevel material xp =>
    some (item.name, spellLevel, (itemArguments spellLevel casterLevel material xp).tail)
  | _ => none

theorem itemArguments_eq (spellLevel casterLevel material xp : Int) :
    itemArguments spellLevel casterLevel material xp =
      spellLevel :: (itemArguments spellLevel casterLevel material xp).tail := by
  unfold itemArguments
  split
  · rfl
  · split
    · rfl
    · split <;> rfl

/-- An expression that is a call is written as one. -/
theorem text_of_call {e : Expression} {head : String} {n : Int} {ns : List Int}
    (h : e.call? = some (head, n, ns)) : e.text = callText head (n :: ns) := by
  cases e with
  | magicArmor plus =>
    cases h
    rfl
  | magicWeapon plus =>
    cases h
    rfl
  | magicItem item spellLevel casterLevel material xp =>
    cases h
    rw [← itemArguments_eq]
    rfl
  | _ => cases h

/-- A head has no parenthesis, and it does not begin with the mark of another form. -/
theorem head_of_call {e : Expression} {head : String} {n : Int} {ns : List Int}
    (h : e.call? = some (head, n, ns)) :
    '(' ∉ head.toList ∧ head.toList.head? ≠ some '*' ∧ head.toList.head? ≠ some '=' := by
  cases e with
  | magicArmor plus =>
    cases h
    decide
  | magicWeapon plus =>
    cases h
    decide
  | magicItem item spellLevel casterLevel material xp =>
    cases h
    cases item <;> decide
  | _ => cases h

/-- The expression of a call, with defaults for the arguments that are left out. -/
def ofCall (head : String) (n : Int) (ns : List Int) : Option Expression :=
  if head = "magic armor" then some (.magicArmor n)
  else if head = "magic weapon" then some (.magicWeapon n)
  else (MagicItem.ofName? head).map fun item =>
    .magicItem item n (ns.getD 0 (MagicItem.minimumCasterLevel n)) (ns.getD 1 0) (ns.getD 2 0)

/-- An item comes back from the arguments of its call, with the usual ones where these are left out.
-/
theorem ofCall_name (item : MagicItem) (n : Int) (ns : List Int) :
    ofCall item.name n ns = some (.magicItem item n
      (ns.getD 0 (MagicItem.minimumCasterLevel n)) (ns.getD 1 0) (ns.getD 2 0)) := by
  cases item <;> rfl

/-- A call determines its expression. -/
theorem ofCall_eq {e : Expression} {head : String} {n : Int} {ns : List Int}
    (h : e.call? = some (head, n, ns)) : ofCall head n ns = some e := by
  cases e with
  | magicArmor plus =>
    cases h
    rfl
  | magicWeapon plus =>
    cases h
    rfl
  | magicItem item spellLevel casterLevel material xp =>
    cases h
    rw [ofCall_name]
    -- an argument is left out only if it and those behind it have their default
    unfold itemArguments
    split_ifs <;> simp_all
  | _ => cases h

/-- What follows the multiplier in the text of a factor. -/
def factorEnd (divide : Int) : List Char :=
  if divide = 1 then [']'] else '/' :: ((plain divide).toList ++ [']'])

theorem toList_text_factor (multiply divide : Int) :
    (factor multiply divide).text.toList =
      '[' :: '*' :: ' ' :: ((plain multiply).toList ++ factorEnd divide) := by
  simp only [text, factorEnd]
  split <;> simp

theorem toList_text_equal (source : String) :
    (equal source).text.toList = '[' :: '=' :: ' ' :: (source.toList ++ [']']) := by
  simp [text]

theorem endsNumeral_factorEnd (divide : Int) : EndsNumeral (factorEnd divide) := by
  unfold factorEnd
  split <;> exact endsNumeral_cons (by decide) _

/-- A divisor that is left out can be told from one that is there. -/
theorem factorEnd_inj {d d' : Int} (h : factorEnd d = factorEnd d') : d = d' := by
  unfold factorEnd at h
  split_ifs at h with hd hd'
  · rw [hd, hd']
  · exact absurd (List.cons.inj h).1 (by decide)
  · exact absurd (List.cons.inj h).1 (by decide)
  · exact (plain_append_inj (endsNumeral_cons (by decide) []) (endsNumeral_cons (by decide) [])
      (List.cons.inj h).2).1

/-- A call has another mark than the forms without arguments. -/
theorem text_ne_of_call {a b : Expression} {call : String × Int × List Int}
    (ha : a.call? = some call) (hb : b.call? = none) : a.text ≠ b.text := by
  obtain ⟨head, n, ns⟩ := call
  obtain ⟨-, hstar, hequal⟩ := head_of_call ha
  intro h
  have hlist := congrArg String.toList h
  rw [text_of_call ha, toList_callText] at hlist
  -- a call goes on with its head, or with the parenthesis where the head is empty
  have hmark : ∀ {c : Char} {cs : List Char},
      head.toList ++ '(' :: ((plain n).toList ++ furtherArguments ns) = c :: cs →
        c = '(' ∨ head.toList.head? = some c := by
    intro c cs hcs
    cases hh : head.toList with
    | nil => exact .inl (List.cons.inj (hh ▸ hcs)).1.symm
    | cons d ds => exact .inr (congrArg some (List.cons.inj (hh ▸ hcs)).1)
  cases b with
  | factor multiply divide =>
    rw [toList_text_factor] at hlist
    exact (hmark (List.cons.inj hlist).2).elim (by decide) hstar
  | equal source =>
    rw [toList_text_equal] at hlist
    exact (hmark (List.cons.inj hlist).2).elim (by decide) hequal
  | _ => cases hb

/-- **An expression is determined by its text.** -/
theorem text_injective {a b : Expression} (h : a.text = b.text) : a = b := by
  cases ha : a.call? with
  | some call =>
    cases hb : b.call? with
    | none => exact absurd h (text_ne_of_call ha hb)
    | some call' =>
      obtain ⟨head, n, ns⟩ := call
      obtain ⟨head', n', ns'⟩ := call'
      rw [text_of_call ha, text_of_call hb] at h
      obtain ⟨rfl, rfl, rfl⟩ := callText_inj (head_of_call ha).1 (head_of_call hb).1 h
      exact Option.some.inj ((ofCall_eq ha).symm.trans (ofCall_eq hb))
  | none =>
    -- two factors or two replacements, since the marks of these differ
    cases hb : b.call? with
    | some call' => exact absurd h.symm (text_ne_of_call hb ha)
    | none =>
      have hlist := congrArg String.toList h
      cases a with
      | factor m d =>
        cases b with
        | factor m' d' =>
          rw [toList_text_factor, toList_text_factor] at hlist
          simp only [List.cons.injEq, true_and] at hlist
          obtain ⟨rfl, hd⟩ :=
            plain_append_inj (endsNumeral_factorEnd d) (endsNumeral_factorEnd d') hlist
          rw [factorEnd_inj hd]
        | equal source =>
          rw [toList_text_factor, toList_text_equal] at hlist
          simp at hlist
        | _ => cases hb
      | equal source =>
        cases b with
        | factor m' d' =>
          rw [toList_text_factor, toList_text_equal] at hlist
          simp at hlist
        | equal source' =>
          rw [toList_text_equal, toList_text_equal] at hlist
          simp only [List.cons.injEq, true_and] at hlist
          rw [String.toList_injective (List.append_cancel_right hlist)]
        | _ => cases hb
      | _ => cases ha

/-! ## The order -/

instance : Std.TransCmp compare :=
  inferInstanceAs (Std.TransCmp (compareLex (compareOn priority) (compareOn text)))

/-- Only equal expressions have the same place. -/
instance : Std.LawfulEqCmp compare where
  eq_of_compare {a b} h := by
    unfold compare at h
    exact text_injective (Std.LawfulEqCmp.eq_of_compare (Ordering.then_eq_eq.mp h).2)

/-- An expression comes before another if it compares less or equal. -/
theorem atMost_iff (a b : Expression) : atMost a b = true ↔ (a.compare b).isLE := by
  unfold atMost
  cases a.compare b <;> decide

theorem atMost_trans (a b c : Expression) (hab : atMost a b) (hbc : atMost b c) : atMost a c := by
  rw [atMost_iff] at *
  exact Std.TransCmp.isLE_trans hab hbc

theorem atMost_total (a b : Expression) : (atMost a b || atMost b a) = true := by
  have hswap : b.compare a = (a.compare b).swap := Std.OrientedCmp.eq_swap
  rw [Bool.or_eq_true, atMost_iff, atMost_iff, hswap]
  cases a.compare b <;> decide

/-- Only equal expressions come before each other. -/
theorem eq_of_atMost {a b : Expression} (hab : atMost a b) (hba : atMost b a) : a = b := by
  rw [atMost_iff] at *
  exact Std.LawfulEqCmp.eq_of_compare (Std.OrientedCmp.isLE_antisymm hab hba)

/-- What applies before comes no later in priority. -/
theorem priority_le_of_atMost {a b : Expression} (h : atMost a b) : a.priority ≤ b.priority := by
  rw [← Nat.not_lt]
  intro hlt
  refine of_decide_eq_true h ?_
  rw [compare, Nat.compare_eq_gt.mpr hlt]
  rfl

theorem pairwise_sorted (es : List Expression) :
    (sorted es).Pairwise fun a b => atMost a b = true :=
  List.pairwise_mergeSort atMost_trans atMost_total es

theorem perm_sorted (es : List Expression) : (sorted es).Perm es := List.mergeSort_perm es atMost

/-- A list in the order of application is the only one with its expressions. -/
theorem sorted_eq_of_pairwise {es fs : List Expression} (h : es.Perm fs)
    (hfs : fs.Pairwise fun a b => atMost a b = true) : sorted es = fs :=
  List.Perm.eq_of_pairwise (fun _ _ _ _ hab hba => eq_of_atMost hab hba) (pairwise_sorted es) hfs
    ((perm_sorted es).trans h)

/-- **The order of application** does not depend on the order in which expressions are given. -/
theorem sorted_eq_of_perm {es fs : List Expression} (h : es.Perm fs) : sorted es = sorted fs :=
  sorted_eq_of_pairwise (h.trans (perm_sorted fs).symm) (pairwise_sorted fs)

/-- Expressions given in any order amount to the same. -/
theorem applyAll_eq_of_perm {α : Type} [Quantity α] {es fs : List Expression} (h : es.Perm fs)
    (value : Option α) : applyAll es value = applyAll fs value := by
  rw [applyAll, applyAll, sorted_eq_of_perm h]

end Tabletop.Expression
