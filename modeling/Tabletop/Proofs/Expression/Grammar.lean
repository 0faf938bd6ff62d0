import Tabletop.Expression.Text
import Tabletop.Proofs.Measure.Checked
import Tabletop.Proofs.Text.Marks

/-!
# The grammar of expressions

What may stand between the brackets, said without the forms that are tried one after the other:

* a **row** of digits is a number (`IsRow`), **arguments** are rows with commas between them
  (`Arguments`), and a **divisor** is a row behind a slash, or nothing (`Divisor`);
* **Body** relates what stands between the brackets to its expression.

The forms are tried in an order, and where one is found no other is tried, though a number in it may
be too great, or its item unknown. Still no text of one form is taken for another one, since the forms
begin differently. So a body is read **exactly if it is one by the grammar**, line feeds in it and
blanks around it apart (`parseBody_eq_ok_iff`).

What is read is a **written** expression (`isWritten_of_parse`): its numbers are those of rows, it
passes the checks that are made when it is put together, and in a text that replaces the value there
is no line feed, nor anything to trim.
-/

namespace Tabletop

namespace Text

variable {c : Char} {cs ds : List Char}

/-! ## Digits of any script -/

/-- Ranges that do not overlap have no character in common. -/
theorem Ranges.has_eq_false_of_apart {rs ss : Ranges}
    (h : rs.all (fun r => ss.all fun s => r.2 < s.1 || s.2 < r.1) = true)
    (hc : rs.has c = true) : ss.has c = false := by
  simp only [Ranges.has, List.all_eq_true, List.any_eq_true, List.any_eq_false, Bool.and_eq_true,
    Bool.or_eq_true, decide_eq_true_eq] at h hc ⊢
  obtain ⟨r, hr, hlow, hhigh⟩ := hc
  intro s hs
  have hapart := h r hr s hs
  omega

theorem isDigit_of_isBlank (h : isBlank c = true) : isDigit c = false := by
  simp only [isDigit]
  split
  · refine Bool.eq_false_iff.mpr fun hdigit => ?_
    rw [isBlank_of_isDigit hdigit] at h
    cases h
  · exact Ranges.has_eq_false_of_apart (by decide) h

theorem isDigit_of_ascii (h : c.isDigit = true) : isDigit c = true := by
  have hrange : c.toNat ≤ 57 := by
    simp only [Char.isDigit, Bool.and_eq_true, decide_eq_true_eq] at h
    exact h.2
  simp only [isDigit, h, ite_eq_left_iff]
  omega

/-- A row of digits ends where what follows does not go on with one. -/
theorem span_isDigit (hds : ∀ d ∈ ds, isDigit d = true) (hcs : ∀ d ∈ cs.head?, isDigit d = false) :
    (ds ++ cs).takeWhile isDigit = ds ∧ (ds ++ cs).dropWhile isDigit = cs := by
  rw [List.takeWhile_append_of_pos hds, List.dropWhile_append_of_pos hds]
  cases cs with
  | nil => exact ⟨List.append_nil ds, rfl⟩
  | cons d cs => simp [hcs d rfl]

end Text

namespace Expression

open Text Numeral Family

variable {ds cs body : List Char} {n : Int} {ns : List Int} {e : Expression}

/-! ## Rows -/

/-- **A row of digits** and its number, which can be stored. -/
structure IsRow (ds : List Char) (n : Int) : Prop where
  digits : AreDigits ds
  value_eq : (value ds : Int) = n
  fits : Fits n

theorem IsRow.isDigit (h : IsRow ds n) : ∀ c ∈ ds, Text.isDigit c = true :=
  fun c hc => isDigit_of_ascii (h.digits.isDigit c hc)

theorem IsRow.notMem {c : Char} (h : IsRow ds n) (hc : c.isDigit = false) : c ∉ ds := by
  intro hmem
  rw [h.digits.isDigit c hmem] at hc
  cases hc

theorem IsRow.nonneg (h : IsRow ds n) : 0 ≤ n := by
  rw [← h.value_eq]
  exact Int.natCast_nonneg _

theorem IsRow.self (h : IsRow ds n) : IsRow ds (value ds) :=
  ⟨h.digits, rfl, h.value_eq ▸ h.fits⟩

theorem splitSign_of_isDigit (h : ∀ c ∈ ds, Text.isDigit c = true) :
    splitSign ds = (false, ds) := by
  unfold splitSign
  split
  · exact absurd (h '-' List.mem_cons_self) (by decide)
  · exact absurd (h '+' List.mem_cons_self) (by decide)
  · rfl

/-- Only a row of ASCII digits has a number. -/
theorem numberIn_eq_ok_iff (body : List Char) (hds : ∀ c ∈ ds, Text.isDigit c = true) :
    numberIn body ds = .ok n ↔ IsRow ds n := by
  simp only [numberIn, int?, splitSign_of_isDigit hds, ofDigits, Bool.false_eq_true, if_false]
  constructor
  · intro h
    split at h
    · rename_i m hm
      split at hm
      · rename_i hrow
        cases h
        cases hm
        exact ⟨⟨hrow.1, List.all_eq_true.mp hrow.2.1⟩, rfl, hrow.2.2⟩
      · cases hm
    · cases h
  · rintro ⟨hdigits, rfl, hfits⟩
    rw [if_pos ⟨hdigits.ne_nil, List.all_eq_true.mpr hdigits.isDigit, hfits⟩]

/-- A row of digits is the number that it has as value. -/
theorem IsRow.numberIn_eq (h : IsRow ds n) (body : List Char) : numberIn body ds = .ok n :=
  (numberIn_eq_ok_iff body h.isDigit).mpr h

/-- An argument that may be missing has the number of its row. -/
theorem optionalIn_eq_ok_iff (body : List Char) {row : Option (List Char)} {m : Option Int}
    (hrow : ∀ ds ∈ row, ∀ c ∈ ds, Text.isDigit c = true) :
    optionalIn body row = .ok m ↔
      (∀ ds ∈ row, IsRow ds (value ds)) ∧ m = row.map fun ds => (value ds : Int) := by
  cases row with
  | none => simp [optionalIn, eq_comm]
  | some ds =>
    have hds := fun n => numberIn_eq_ok_iff body (n := n) (hrow ds rfl)
    simp only [optionalIn, Option.mem_def, Option.some.injEq, forall_eq', Option.map_some]
    constructor
    · intro h
      cases hnumber : numberIn body ds with
      | error failure =>
        rw [hnumber] at h
        cases h
      | ok n =>
        rw [hnumber] at h
        cases h
        have hn := (hds n).mp hnumber
        obtain rfl := hn.value_eq
        exact ⟨hn, rfl⟩
    · rintro ⟨hn, rfl⟩
      rw [hn.numberIn_eq]
      rfl

/-! ## Forms -/

/-- A call with digits alone is its head and a row in brackets. -/
theorem digitsIn?_eq_some_iff {head : String} :
    digitsIn? head body = some ds ↔
      body = head.toList ++ '(' :: (ds ++ [')']) ∧ ds ≠ [] ∧ ∀ c ∈ ds, Text.isDigit c = true := by
  have hmark : (head ++ "(").toList = head.toList ++ ['('] := String.toList_append
  simp only [digitsIn?, bind, Option.bind_eq_some_iff, after?_eq_some_iff, before?_eq_some_iff]
  constructor
  · rintro ⟨rest, rfl, inner, rfl, h⟩
    split at h
    · rename_i hinner
      cases h
      refine ⟨?_, hinner.1, List.all_eq_true.mp hinner.2⟩
      rw [hmark, List.append_assoc]
      rfl
    · cases h
  · rintro ⟨rfl, hne, hall⟩
    refine ⟨ds ++ [')'], ?_, ds, rfl, if_pos ⟨hne, List.all_eq_true.mpr hall⟩⟩
    rw [hmark, List.append_assoc]
    rfl

/-- **The divisor** behind a factor: nothing, or a row behind a slash. -/
inductive Divisor : List Char → Int → Prop
  | none : Divisor [] 1
  | some {cs rest : List Char} {n : Int} (hslash : trimStart cs = '/' :: rest)
    (hrow : IsRow (trimStart rest) n) : Divisor cs n

theorem Divisor.head_not_digit (h : Divisor cs n) : ∀ c ∈ cs.head?, Text.isDigit c = false := by
  intro c hc
  cases h with
  | none => cases hc
  | @some _ rest _ hslash hrow =>
    cases cs with
    | nil => cases hc
    | cons d ds =>
      cases hc
      cases hblank : isBlank c with
      | true => exact isDigit_of_isBlank hblank
      | false =>
        rw [trimStart_cons hblank] at hslash
        rw [(List.cons.inj hslash).1]
        decide

/-- **Arguments**, up to the parenthesis behind them: rows with commas between them. -/
inductive Arguments : List Char → List Int → Prop
  | last {ds : List Char} {n : Int} (hrow : IsRow ds n) : Arguments (ds ++ [')']) [n]
  | more {ds rest : List Char} {n : Int} {ns : List Int} (hrow : IsRow ds n)
    (hrest : Arguments (trimStart rest) ns) : Arguments (ds ++ ',' :: rest) (n :: ns)

/-- Arguments are found as their rows. -/
theorem Arguments.exists_rows (h : Arguments cs ns) {most : Nat} (hlength : ns.length ≤ most) :
    ∃ rows, argumentsIn? most cs = some rows ∧ (∀ ds ∈ rows, IsRow ds (value ds)) ∧
      rows.map (fun ds => (value ds : Int)) = ns := by
  induction h generalizing most with
  | @last ds n hrow =>
    obtain ⟨most, rfl⟩ := Nat.exists_eq_add_one_of_ne_zero (Nat.pos_iff_ne_zero.mp hlength)
    have hend : ∀ c ∈ [')'].head?, Text.isDigit c = false := by
      rintro c ⟨⟩
      decide
    obtain ⟨htake, hdrop⟩ := span_isDigit hrow.isDigit hend
    refine ⟨[ds], ?_, ?_, congrArg (fun m => [m]) hrow.value_eq⟩
    · simp only [argumentsIn?, htake, hdrop, if_neg hrow.digits.ne_nil]
    · exact List.forall_mem_singleton.mpr hrow.self
  | @more ds rest n ns hrow hrest ih =>
    obtain ⟨most, rfl⟩ := Nat.exists_eq_add_one_of_ne_zero
      (Nat.pos_iff_ne_zero.mp ((Nat.succ_pos _).trans_le hlength))
    obtain ⟨rows, hrows, hnumbers, rfl⟩ := ih (Nat.le_of_succ_le_succ hlength)
    have hend : ∀ c ∈ (',' :: rest).head?, Text.isDigit c = false := by
      rintro c ⟨⟩
      decide
    obtain ⟨htake, hdrop⟩ := span_isDigit hrow.isDigit hend
    refine ⟨ds :: rows, ?_, ?_, congrArg (fun m => m :: _) hrow.value_eq⟩
    · simp only [argumentsIn?, htake, hdrop, if_neg hrow.digits.ne_nil, hrows, Option.map_some]
    · exact List.forall_mem_cons.mpr ⟨hrow.self, hnumbers⟩

/-- Rows that were found are arguments if they have numbers. -/
theorem arguments_of_argumentsIn? {most : Nat} {rows : List (List Char)}
    (h : argumentsIn? most cs = some rows) :
    rows ≠ [] ∧ rows.length ≤ most ∧ (∀ ds ∈ rows, ∀ c ∈ ds, Text.isDigit c = true) ∧
      ((∀ ds ∈ rows, IsRow ds (value ds)) → Arguments cs (rows.map fun ds => (value ds : Int))) := by
  induction most generalizing cs rows with
  | zero => cases h
  | succ most ih =>
    have hparts := List.takeWhile_append_dropWhile (p := Text.isDigit) (l := cs)
    have hall : ∀ c ∈ cs.takeWhile Text.isDigit, Text.isDigit c = true :=
      List.all_eq_true.mp List.all_takeWhile
    simp only [argumentsIn?] at h
    generalize cs.takeWhile Text.isDigit = ds at h hparts hall
    split at h
    · cases h
    · split at h
      · -- the last row
        rename_i hclose
        cases h
        rw [hclose] at hparts
        refine ⟨List.cons_ne_nil _ _, Nat.succ_le_succ (Nat.zero_le most), ?_, ?_⟩
        · exact List.forall_mem_singleton.mpr hall
        · intro hrows
          rw [← hparts]
          exact .last (hrows _ List.mem_cons_self)
      · -- a row and a comma
        rename_i rest hcomma
        obtain ⟨later, hlater, rfl⟩ := Option.map_eq_some_iff.mp h
        obtain ⟨-, hlength, hdigits, harguments⟩ := ih hlater
        rw [hcomma] at hparts
        refine ⟨List.cons_ne_nil _ _, Nat.succ_le_succ hlength, ?_, ?_⟩
        · exact List.forall_mem_cons.mpr ⟨hall, hdigits⟩
        · intro hrows
          obtain ⟨hrow, hrows⟩ := List.forall_mem_cons.mp hrows
          rw [← hparts]
          exact .more hrow (harguments hrows)
      · cases h

/-! ## Magic items and factors -/

/-- **A magic item is made** with its costs if the caster level is high enough and no cost is
negative. -/
theorem makeItem_withCosts_eq_ok_iff {item : MagicItem} {spellLevel material xp : Int}
    {casterLevel : Option Int} :
    (makeItem item spellLevel casterLevel >>= fun made => made.withCosts material xp) = .ok e ↔
      MagicItem.minimumCasterLevel spellLevel ≤
          casterLevel.getD (MagicItem.minimumCasterLevel spellLevel) ∧
        0 ≤ material ∧ 0 ≤ xp ∧
        e = .magicItem item spellLevel
          (casterLevel.getD (MagicItem.minimumCasterLevel spellLevel)) material xp := by
  simp only [makeItem]
  split
  · rename_i hlevel
    simp [Int.not_le.mpr hlevel, bind, Except.bind]
  · rename_i hlevel
    simp only [bind, Except.bind, withCosts]
    split
    · rename_i hmaterial
      simp [Int.not_le.mpr hmaterial]
    · rename_i hmaterial
      split
      · rename_i hxp
        simp [Int.not_le.mpr hxp]
      · rename_i hxp
        simp [Int.not_lt.mp hlevel, Int.not_lt.mp hmaterial, Int.not_lt.mp hxp, eq_comm]

/-- Factors are made with any divisor but zero. -/
theorem makeFactor_eq_ok_iff {multiply divide : Int} :
    makeFactor multiply divide = .ok e ↔ divide ≠ 0 ∧ e = .factor multiply divide := by
  simp only [makeFactor]
  split
  · rename_i hzero
    simp [hzero]
  · rename_i hne
    simp [hne, eq_comm]

/-- The magic item of some arguments; those that are left out have their default. -/
def itemWith (item : MagicItem) (n : Int) (ns : List Int) : Expression :=
  .magicItem item n (ns.getD 0 (MagicItem.minimumCasterLevel n)) (ns.getD 1 0) (ns.getD 2 0)

theorem getD_map_value (rows : List (List Char)) (i : Nat) (default : Int) :
    (rows.map fun ds => (value ds : Int)).getD i default =
      (rows[i]?.map fun ds => (value ds : Int)).getD default := by
  rw [List.getD_eq_getElem?_getD, List.getElem?_map]

theorem getD_value_nonneg (row : Option (List Char)) :
    0 ≤ (row.map fun ds => (value ds : Int)).getD 0 := by
  cases row with
  | none => exact Int.le_refl 0
  | some ds => exact Int.natCast_nonneg _

/-- **A magic item is made** of the numbers of its rows. -/
theorem itemOf_eq_ok_iff {name row : List Char} {rows : List (List Char)}
    (hdigits : ∀ ds ∈ row :: rows, ∀ c ∈ ds, Text.isDigit c = true) (hlength : rows.length ≤ 3) :
    itemOf body name (row :: rows) = .ok e ↔
      (∀ ds ∈ row :: rows, IsRow ds (value ds)) ∧
      ∃ item, MagicItem.ofName? (String.ofList name) = some item ∧
        MagicItem.minimumCasterLevel (value row) ≤ (rows.map fun ds => (value ds : Int)).getD 0
          (MagicItem.minimumCasterLevel (value row)) ∧
        e = itemWith item (value row) (rows.map fun ds => (value ds : Int)) := by
  obtain ⟨hrow, hrows⟩ := List.forall_mem_cons.mp hdigits
  have hoptional := fun (i : Nat) (m : Option Int) =>
    optionalIn_eq_ok_iff body (m := m) fun ds (hds : ds ∈ rows[i]?) =>
      hrows ds (List.mem_of_getElem? hds)
  simp only [itemOf, itemWith, getD_map_value]
  constructor
  · intro h
    cases hitem : MagicItem.ofName? (String.ofList name) with
    | none =>
      rw [hitem] at h
      cases h
    | some item =>
      rw [hitem] at h
      obtain ⟨spellLevel, hspell, h⟩ := bind_eq_ok h
      obtain ⟨casterLevel, hcaster, h⟩ := bind_eq_ok h
      obtain ⟨material, hmaterial, h⟩ := bind_eq_ok h
      obtain ⟨xp, hxp, h⟩ := bind_eq_ok h
      have hspellRow := (numberIn_eq_ok_iff body hrow).mp hspell
      obtain rfl := hspellRow.value_eq
      obtain ⟨hcasterRow, rfl⟩ := (hoptional 0 _).mp hcaster
      obtain ⟨hmaterialRow, rfl⟩ := (hoptional 1 _).mp hmaterial
      obtain ⟨hxpRow, rfl⟩ := (hoptional 2 _).mp hxp
      obtain ⟨hlevel, -, -, rfl⟩ := makeItem_withCosts_eq_ok_iff.mp h
      refine ⟨List.forall_mem_cons.mpr ⟨hspellRow, ?_⟩, item, rfl, hlevel, rfl⟩
      -- there are three further rows at most
      intro ds hds
      obtain ⟨i, hi⟩ := List.mem_iff_getElem?.mp hds
      have hlt : i < 3 := (List.getElem?_eq_some_iff.mp hi).1.trans_le hlength
      match i, hlt with
      | 0, _ => exact hcasterRow ds hi
      | 1, _ => exact hmaterialRow ds hi
      | 2, _ => exact hxpRow ds hi
  · rintro ⟨hall, item, hitem, hlevel, rfl⟩
    obtain ⟨hspell, hall⟩ := List.forall_mem_cons.mp hall
    have hnumber := fun i => (hoptional i _).mpr
      ⟨fun ds hds => hall ds (List.mem_of_getElem? hds), rfl⟩
    simp only [hitem, List.headD_cons, List.getElem?_cons_succ, hspell.numberIn_eq, hnumber]
    exact makeItem_withCosts_eq_ok_iff.mpr
      ⟨hlevel, getD_value_nonneg rows[1]?, getD_value_nonneg rows[2]?, rfl⟩

/-- What is found of a factor. -/
theorem exists_of_factorIn? {num : List Char} {den : Option (List Char)}
    (h : factorIn? body = some (num, den)) :
    ∃ rest behind, body = '*' :: rest ∧ trimStart rest = num ++ behind ∧
      (∀ c ∈ num, Text.isDigit c = true) ∧ (∀ ds ∈ den, ∀ c ∈ ds, Text.isDigit c = true) ∧
      ∀ divide, optionalIn body den = .ok divide → Divisor behind (divide.getD 1) := by
  simp only [factorIn?, bind, Option.bind_eq_some_iff, after?_eq_some_iff] at h
  obtain ⟨rest, rfl, h⟩ := h
  have hparts := List.takeWhile_append_dropWhile (p := Text.isDigit) (l := trimStart rest)
  have hall : ∀ c ∈ (trimStart rest).takeWhile Text.isDigit, Text.isDigit c = true :=
    List.all_eq_true.mp List.all_takeWhile
  split at h
  · cases h
  · split at h
    · -- no divisor
      rename_i hdrop
      cases h
      rw [hdrop] at hparts
      refine ⟨rest, [], rfl, hparts.symm, hall, by rintro ds ⟨⟩, ?_⟩
      rintro _ ⟨⟩
      exact .none
    · obtain ⟨behindSlash, hslash, h⟩ := Option.bind_eq_some_iff.mp h
      split at h
      · rename_i hden
        cases h
        have hden : ∀ c ∈ trimStart behindSlash, Text.isDigit c = true :=
          List.all_eq_true.mp hden.2
        have hdigits : ∀ ds ∈ some (trimStart behindSlash), ∀ c ∈ ds, Text.isDigit c = true := by
          rintro _ ⟨⟩
          exact hden
        refine ⟨rest, _, rfl, hparts.symm, hall, hdigits, ?_⟩
        intro divide hdivide
        obtain ⟨hrow, rfl⟩ := (optionalIn_eq_ok_iff _ hdigits).mp hdivide
        exact .some (after?_eq_some_iff.mp hslash) (hrow _ rfl)
      · cases h

/-- A factor is found by its parts. -/
theorem exists_factorIn? {rest num behind : List Char} {multiply divide : Int}
    (hnum : trimStart rest = num ++ behind) (hrow : IsRow num multiply)
    (hbehind : Divisor behind divide) :
    ∃ den m, factorIn? ('*' :: rest) = some (num, den) ∧
      optionalIn ('*' :: rest) den = .ok m ∧ m.getD 1 = divide := by
  have hstar : after? "*" ('*' :: rest) = some rest := after?_eq_some_iff.mpr rfl
  obtain ⟨htake, hdrop⟩ := span_isDigit hrow.isDigit hbehind.head_not_digit
  cases hbehind with
  | none =>
    refine ⟨none, none, ?_, rfl, rfl⟩
    simp only [factorIn?, hstar, bind, Option.bind_some, hnum, htake, hdrop,
      if_neg hrow.digits.ne_nil]
  | @some _ behindSlash _ hslash hden =>
    have hmark : after? "/" (trimStart behind) = some behindSlash :=
      after?_eq_some_iff.mpr hslash
    refine ⟨some (trimStart behindSlash), some divide, ?_, ?_, rfl⟩
    · cases behind with
      | nil => cases hslash
      | cons c cs =>
        simp only [factorIn?, hstar, bind, Option.bind_some, hnum, htake, hdrop, hmark,
          if_neg hrow.digits.ne_nil]
        exact if_pos ⟨hden.digits.ne_nil, List.all_eq_true.mpr hden.isDigit⟩
    · simp only [optionalIn, hden.numberIn_eq]
      rfl

/-! ## Bodies -/

/-- **What stands between the brackets**, and its expression. -/
inductive Body : List Char → Expression → Prop
  | magicArmor {ds : List Char} {n : Int} (hrow : IsRow ds n) :
    Body ("magic armor".toList ++ '(' :: (ds ++ [')'])) (.magicArmor n)
  | magicWeapon {ds : List Char} {n : Int} (hrow : IsRow ds n) :
    Body ("magic weapon".toList ++ '(' :: (ds ++ [')'])) (.magicWeapon n)
  | factor {rest num behind : List Char} {multiply divide : Int}
    (hnum : trimStart rest = num ++ behind) (hrow : IsRow num multiply)
    (hbehind : Divisor behind divide) (hdivide : divide ≠ 0) :
    Body ('*' :: rest) (.factor multiply divide)
  | magicItem (item : MagicItem) {cs : List Char} {n : Int} {ns : List Int}
    (harguments : Arguments cs (n :: ns)) (hlength : ns.length ≤ 3)
    (hlevel : MagicItem.minimumCasterLevel n ≤ ns.getD 0 (MagicItem.minimumCasterLevel n)) :
    Body (item.name.toList ++ '(' :: cs) (itemWith item n ns)
  | equal (rest : List Char) : Body ('=' :: rest) (.equal (trimmed rest))

theorem ofName?_eq_some {name : String} {item : MagicItem}
    (h : MagicItem.ofName? name = some item) : item.name = name := by
  simp only [MagicItem.ofName?] at h
  exact beq_iff_eq.mp (List.find?_some (p := fun item : MagicItem => item.name == name) h)

/-- A call that makes a magic item is a body. -/
theorem body_of_callIn? {name : List Char} {rows : List (List Char)}
    (hcall : callIn? cs = some (name, rows)) (h : itemOf body name rows = .ok e) : Body cs e := by
  have hparts := List.takeWhile_append_dropWhile (p := isWordChar) (l := cs)
  simp only [callIn?] at hcall
  split at hcall
  · rename_i c word rest hname hbehind
    obtain ⟨rows, hrows, hpair⟩ := Option.map_eq_some_iff.mp hcall
    cases hpair
    obtain ⟨hne, hlength, hdigits, harguments⟩ := arguments_of_argumentsIn? hrows
    obtain ⟨row, rows, rfl⟩ := List.exists_cons_of_ne_nil hne
    obtain ⟨hall, item, hitem, hlevel, rfl⟩ :=
      (itemOf_eq_ok_iff hdigits (Nat.le_of_succ_le_succ hlength)).mp h
    have hitem : item.name.toList = cs.takeWhile isWordChar := by
      rw [ofName?_eq_some hitem, String.toList_ofList]
    rw [← hparts, hbehind, ← hitem]
    refine .magicItem item (harguments hall) ?_ hlevel
    rw [List.length_map]
    exact Nat.le_of_succ_le_succ hlength
  · cases hcall

/-- The name of an item is the word in front of the parenthesis. -/
theorem callIn?_name (item : MagicItem) (cs : List Char) :
    callIn? (item.name.toList ++ '(' :: cs) =
      (argumentsIn? 4 cs).map (item.name.toList, ·) := by
  have hall : item.name.toList.all isWordChar = true := by
    cases item <;> decide
  have hword := List.all_eq_true.mp hall
  have hmark : isWordChar '(' = false := by decide
  simp only [callIn?, List.takeWhile_append_of_pos hword, List.dropWhile_append_of_pos hword,
    List.takeWhile_cons, List.dropWhile_cons, hmark, Bool.false_eq_true, if_false, List.append_nil]
  cases item <;> rfl

/-- The numbers of a form, if it has rows. -/
theorem map_numberIn_eq_ok_iff {f : Int → Expression} (hds : ∀ c ∈ ds, Text.isDigit c = true) :
    (numberIn body ds).map f = .ok e ↔ ∃ n, IsRow ds n ∧ e = f n := by
  simp only [← numberIn_eq_ok_iff body hds]
  cases numberIn body ds with
  | error failure => simp [Except.map]
  | ok n => simp [Except.map, eq_comm]

/-- Whatever form is found first makes a body. -/
theorem body_of_parseBody (h : parseBody cs = .ok e) : Body (trim (cs.filter (· ≠ '\n'))) e := by
  simp only [parseBody] at h
  generalize trim (cs.filter (· ≠ '\n')) = body at h
  split at h
  · rename_i ds harmor
    obtain ⟨rfl, -, hds⟩ := digitsIn?_eq_some_iff.mp harmor
    obtain ⟨n, hrow, rfl⟩ := (map_numberIn_eq_ok_iff hds).mp h
    exact .magicArmor hrow
  · split at h
    · rename_i ds hweapon
      obtain ⟨rfl, -, hds⟩ := digitsIn?_eq_some_iff.mp hweapon
      obtain ⟨n, hrow, rfl⟩ := (map_numberIn_eq_ok_iff hds).mp h
      exact .magicWeapon hrow
    · split at h
      · rename_i num den hfactor
        obtain ⟨multiply, hmultiply, hrest⟩ := bind_eq_ok h
        obtain ⟨divide, hdivide, hmade⟩ := bind_eq_ok hrest
        obtain ⟨hzero, rfl⟩ := makeFactor_eq_ok_iff.mp hmade
        obtain ⟨rest, behind, rfl, hnum, hdigits, -, hbehind⟩ := exists_of_factorIn? hfactor
        have hrow := (numberIn_eq_ok_iff _ hdigits).mp hmultiply
        exact .factor hnum hrow (hbehind divide hdivide) hzero
      · split at h
        · rename_i name rows hcall
          exact body_of_callIn? hcall h
        · split at h
          · rename_i rest hequal
            cases h
            rw [after?_eq_some_iff.mp hequal]
            exact .equal rest
          · cases h

/-- **A body is read** exactly if it is one by the grammar, line feeds and outer blanks apart. -/
theorem parseBody_eq_ok_iff {source : List Char} :
    parseBody source = .ok e ↔ Body (trim (source.filter (· ≠ '\n'))) e := by
  refine ⟨body_of_parseBody, fun h => ?_⟩
  simp only [parseBody]
  generalize trim (source.filter (· ≠ '\n')) = body at h ⊢
  cases h with
  | @magicArmor ds n hrow =>
    have hform : digitsIn? "magic armor" ("magic armor".toList ++ '(' :: (ds ++ [')'])) = some ds :=
      digitsIn?_eq_some_iff.mpr ⟨rfl, hrow.digits.ne_nil, hrow.isDigit⟩
    simp only [hform]
    exact (map_numberIn_eq_ok_iff hrow.isDigit).mpr ⟨n, hrow, rfl⟩
  | @magicWeapon ds n hrow =>
    have hother : digitsIn? "magic armor" ("magic weapon".toList ++ '(' :: (ds ++ [')'])) = none :=
      rfl
    have hform : digitsIn? "magic weapon" ("magic weapon".toList ++ '(' :: (ds ++ [')'])) =
        some ds := digitsIn?_eq_some_iff.mpr ⟨rfl, hrow.digits.ne_nil, hrow.isDigit⟩
    simp only [hother, hform]
    exact (map_numberIn_eq_ok_iff hrow.isDigit).mpr ⟨n, hrow, rfl⟩
  | @factor rest num behind multiply divide hnum hrow hbehind hdivide =>
    have harmor : digitsIn? "magic armor" ('*' :: rest) = none := rfl
    have hweapon : digitsIn? "magic weapon" ('*' :: rest) = none := rfl
    obtain ⟨den, m, hform, hden, rfl⟩ := exists_factorIn? hnum hrow hbehind
    simp only [harmor, hweapon, hform, hrow.numberIn_eq, hden, bind, Except.bind]
    exact makeFactor_eq_ok_iff.mpr ⟨hdivide, rfl⟩
  | @magicItem item cs n ns harguments hlength hlevel =>
    have harmor : digitsIn? "magic armor" (item.name.toList ++ '(' :: cs) = none := by
      cases item <;> rfl
    have hweapon : digitsIn? "magic weapon" (item.name.toList ++ '(' :: cs) = none := by
      cases item <;> rfl
    have hfactor : factorIn? (item.name.toList ++ '(' :: cs) = none := by
      cases item <;> rfl
    have hmost : (n :: ns).length ≤ 4 := Nat.succ_le_succ hlength
    obtain ⟨rows, hrows, hnumbers, hmap⟩ := harguments.exists_rows hmost
    obtain ⟨row, rows, rfl⟩ := List.exists_cons_of_ne_nil (l := rows) fun hnil => by
      rw [hnil] at hmap
      cases hmap
    obtain ⟨rfl, rfl⟩ := List.cons.inj hmap
    rw [List.length_map] at hlength
    simp only [harmor, hweapon, hfactor, callIn?_name, hrows, Option.map_some]
    refine (itemOf_eq_ok_iff (fun ds hds => (hnumbers ds hds).isDigit) hlength).mpr
      ⟨hnumbers, item, ?_, hlevel, rfl⟩
    cases item <;> rfl
  | equal rest =>
    have harmor : digitsIn? "magic armor" ('=' :: rest) = none := rfl
    have hweapon : digitsIn? "magic weapon" ('=' :: rest) = none := rfl
    have hfactor : factorIn? ('=' :: rest) = none := rfl
    have hcall : callIn? ('=' :: rest) = none := by
      have hmark : isWordChar '=' = false := by decide
      simp [callIn?, hmark]
    have hform : after? "=" ('=' :: rest) = some rest := after?_eq_some_iff.mpr rfl
    simp only [harmor, hweapon, hfactor, hcall, hform]

/-! ## Whole texts and beginnings of texts -/

/-- **A whole text** is read as an expression if it is a body in brackets, outer blanks apart. -/
theorem parse_eq_ok_iff {source : String} :
    parse source = .ok e ↔
      ∃ body, trim source.toList = '[' :: (body ++ [']']) ∧ parseBody body = .ok e := by
  have hbrackets : ∀ body, (after? "[" (trim source.toList)).bind (before? "]") = some body ↔
      trim source.toList = '[' :: (body ++ [']']) := by
    intro body
    simp only [Option.bind_eq_some_iff, after?_eq_some_iff, before?_eq_some_iff]
    exact ⟨fun ⟨_, hopen, hclose⟩ => hclose ▸ hopen, fun h => ⟨_, h, rfl⟩⟩
  simp only [parse, ← hbrackets]
  cases (after? "[" (trim source.toList)).bind (before? "]") with
  | none => simp
  | some body => simp

/-- **An expression in front** of a text is a body up to the first closing bracket. -/
theorem read_eq_some_iff {rest : List Char} :
    read cs = (some e, rest) ↔
      ∃ body, trimStart cs = '[' :: (body ++ ']' :: rest) ∧ ']' ∉ body ∧ parseBody body = .ok e := by
  constructor
  · intro h
    simp only [read] at h
    split at h
    · cases h
    · rename_i c inner hopen
      split at h
      · cases h
      · rename_i body behind hclose
        split at h
        · rename_i hbody
          cases h
          obtain ⟨rfl, hmark⟩ := splitOnce_eq_some_iff.mp hclose
          exact ⟨body, (Reader.char_eq_some_iff.mp hopen).2, hmark, hbody⟩
        · cases h
  · rintro ⟨body, hbrackets, hmark, hbody⟩
    have hclose := splitOnce_append hmark rest
    simp only [read, Reader.char_eq_some hbrackets, hclose, hbody]

/-! ## Numbers of rows -/

/-- A number that a row of digits may have. -/
structure IsArgument (n : Int) : Prop where
  nonneg : 0 ≤ n
  fits : Fits n

theorem isArgument_zero : IsArgument 0 := ⟨Int.le_refl 0, by decide⟩

theorem isArgument_one : IsArgument 1 := ⟨by decide, by decide⟩

/-- The lowest caster level is an argument, whatever the spell level. -/
theorem isArgument_minimumCasterLevel (spellLevel : Int) :
    IsArgument (MagicItem.minimumCasterLevel spellLevel) := by
  simp only [MagicItem.minimumCasterLevel]
  split
  · constructor
    · simp only [clamp, minStored, maxStored]
      omega
    · simp only [clamp, Fits, minStored, maxStored]
      omega
  · exact isArgument_one

theorem IsRow.isArgument (h : IsRow ds n) : IsArgument n := ⟨h.nonneg, h.fits⟩

theorem Divisor.isArgument (h : Divisor cs n) : IsArgument n := by
  cases h with
  | none => exact isArgument_one
  | some hslash hrow => exact hrow.isArgument

theorem Arguments.isArgument (h : Arguments cs ns) : ∀ n ∈ ns, IsArgument n := by
  induction h with
  | last hrow => exact List.forall_mem_singleton.mpr hrow.isArgument
  | more hrow hrest ih => exact List.forall_mem_cons.mpr ⟨hrow.isArgument, ih⟩

theorem isArgument_getD (hns : ∀ n ∈ ns, IsArgument n) {default : Int}
    (hdefault : IsArgument default) (i : Nat) : IsArgument (ns.getD i default) := by
  rw [List.getD_eq_getElem?_getD]
  cases hi : ns[i]? with
  | none => exact hdefault
  | some n => exact hns n (List.mem_of_getElem? hi)

/-! ## What is read -/

/-- **A written expression**: numbers of rows, the lowest caster level at least and no divisor of
zero, and a text of one line with nothing to trim. -/
def IsWritten : Expression → Prop
  | .magicArmor plus | .magicWeapon plus => IsArgument plus
  | .magicItem _ spellLevel casterLevel material xp =>
    (IsArgument spellLevel ∧ IsArgument casterLevel ∧ IsArgument material ∧ IsArgument xp) ∧
      MagicItem.minimumCasterLevel spellLevel ≤ casterLevel
  | .factor multiply divide => IsArgument multiply ∧ IsArgument divide ∧ divide ≠ 0
  | .equal source => '\n' ∉ source.toList ∧ trim source.toList = source.toList

/-- **A body without line feeds** stands for a written expression. -/
theorem Body.isWritten (h : Body body e) (hbody : '\n' ∉ body) : e.IsWritten := by
  cases h with
  | magicArmor hrow => exact hrow.isArgument
  | magicWeapon hrow => exact hrow.isArgument
  | factor hnum hrow hbehind hdivide => exact ⟨hrow.isArgument, hbehind.isArgument, hdivide⟩
  | magicItem item harguments hlength hlevel =>
    obtain ⟨hspell, hothers⟩ := List.forall_mem_cons.mp harguments.isArgument
    refine ⟨⟨hspell, ?_, ?_, ?_⟩, hlevel⟩
    · exact isArgument_getD hothers (isArgument_minimumCasterLevel _) 0
    · exact isArgument_getD hothers isArgument_zero 1
    · exact isArgument_getD hothers isArgument_zero 2
  | equal rest =>
    have hrest : '\n' ∉ rest := fun hmem => hbody (List.mem_cons_of_mem _ hmem)
    simp only [IsWritten, trimmed, String.toList_ofList]
    exact ⟨fun hmem => hrest (trim_subset rest hmem), trim_trim rest⟩

/-- **What was parsed could be written.** -/
theorem isWritten_of_parse {source : String} (h : parse source = .ok e) : e.IsWritten := by
  obtain ⟨body, -, hbody⟩ := parse_eq_ok_iff.mp h
  refine (parseBody_eq_ok_iff.mp hbody).isWritten fun hmem => ?_
  have hfeed := List.mem_filter.mp (trim_subset _ hmem)
  simp at hfeed

end Expression

end Tabletop
