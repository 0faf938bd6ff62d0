import Tabletop.Json.Parser
import Tabletop.Json.Printer
import Tabletop.Proofs.Text.Numeral

/-!
# JSON read back

A value that is written without blanks reads as itself, whatever follows it.

* **strings**: a character, escaped or not, is read as one piece that stands for it
  (`pieces_escapeChar`), so a quoted text gives that text (`stringBehind_quoted`);
* **numbers** keep the form in which they were written (`numberAhead_numberText`), if what follows
  does not go on with them (`EndsNumber`);
* **values**: by recursion on the value, with two steps of fuel for every character written
  (`valueAhead_write`); and so a whole text is read back (`parse_compact`).
-/

namespace Tabletop.Json

open Numeral

/-! ## Strings -/

/-- A hexadecimal digit has the value that it was written for. -/
theorem hexValue?_hexDigit {n : Nat} (h : n < 16) : hexValue? (hexDigit n) = some n := by
  revert n
  decide

/-- **A character is read back** from what is written for it: as itself, or as a code unit. -/
theorem pieces_escapeChar (c : Char) :
    ∃ p, (∀ cs, pieces (escapeChar c ++ cs) =
        (pieces cs).map fun (ps, behind) => (p :: ps, behind)) ∧
      ∀ ps, textOf (p :: ps) = (textOf ps).map (c :: ·) := by
  have hbind : ∀ (p : Piece) (r : Option (List Piece × List Char)),
      (do let (ps, behind) ← r; some (p :: ps, behind)) =
        r.map fun (ps, behind) => (p :: ps, behind) := by
    intro p r
    cases r <;> rfl
  by_cases hshort : c = '\x22' ∨ c = '\x5c' ∨ c = '\x08' ∨ c = '\x0c' ∨ c = '\n' ∨
      c = '\r' ∨ c = '\t'
  · -- a short escape
    refine ⟨.char c, fun cs => ?_, fun ps => rfl⟩
    rcases hshort with rfl | rfl | rfl | rfl | rfl | rfl | rfl <;> exact hbind _ _
  · have hescape : escapeChar c = if c.toNat < 0x20 then
        ['\x5c', 'u', '0', '0', hexDigit (c.toNat / 16), hexDigit (c.toNat % 16)] else [c] := by
      simp only [not_or] at hshort
      obtain ⟨h1, h2, h3, h4, h5, h6, h7⟩ := hshort
      simp only [escapeChar, if_neg h1, if_neg h2, if_neg h3, if_neg h4, if_neg h5, if_neg h6,
        if_neg h7]
    rw [hescape]
    by_cases hcontrol : c.toNat < 0x20
    · -- a control character, by its code
      refine ⟨.unit c.toNat, fun cs => ?_, fun ps => ?_⟩
      · have hzero : hexValue? '0' = some 0 := rfl
        have hhigh : hexValue? (hexDigit (c.toNat / 16)) = some (c.toNat / 16) :=
          hexValue?_hexDigit (by omega)
        have hlow : hexValue? (hexDigit (c.toNat % 16)) = some (c.toNat % 16) :=
          hexValue?_hexDigit (by omega)
        have hcode : 4096 * 0 + 256 * 0 + 16 * (c.toNat / 16) + c.toNat % 16 = c.toNat := by omega
        rw [if_pos hcontrol]
        simp only [List.cons_append, List.nil_append, pieces, hzero, hhigh, hlow,
          Option.bind_eq_bind, Option.bind_some, hcode]
        exact hbind _ _
      · have hlow : c.toNat < 0xD800 ∨ 0xDFFF < c.toNat := by omega
        rw [textOf.eq_def]
        simp only [if_pos hlow, Char.ofNat_toNat]
    · -- any other character stands for itself
      refine ⟨.char c, fun cs => ?_, fun ps => rfl⟩
      rw [if_neg hcontrol, List.singleton_append, pieces.eq_def]
      split
      · rename_i h
        cases h
      · rename_i h
        simp_all
      · rename_i h
        simp_all
      · rename_i h
        simp_all
      · rename_i c' rest h
        obtain ⟨rfl, rfl⟩ := List.cons.inj h
        rw [if_neg (by simp_all)]
        exact hbind _ _

/-- **Escaped text is read back**, up to the closing quotation mark. -/
theorem pieces_escaped (cs rest : List Char) :
    ∃ ps, pieces (cs.flatMap escapeChar ++ '\x22' :: rest) = some (ps, rest) ∧
      textOf ps = some cs := by
  induction cs with
  | nil => exact ⟨[], rfl, rfl⟩
  | cons c cs ih =>
    obtain ⟨ps, hpieces, htext⟩ := ih
    obtain ⟨p, hp, hc⟩ := pieces_escapeChar c
    refine ⟨p :: ps, ?_, ?_⟩
    · rw [List.flatMap_cons, List.append_assoc, hp, hpieces]
      rfl
    · rw [hc, htext]
      rfl

/-- **A quoted text is read back.** -/
theorem stringBehind_quoted (s : String) (rest : List Char) :
    stringBehind (s.toList.flatMap escapeChar ++ '\x22' :: rest) = some (some s, rest) := by
  obtain ⟨ps, hpieces, htext⟩ := pieces_escaped s.toList rest
  rw [stringBehind, hpieces]
  simp only [Option.bind_eq_bind, Option.bind_some, htext, Option.map_some, String.ofList_toList]

/-- A quoted text is its escaped characters between quotation marks. -/
theorem quoted_append (s : String) (rest : List Char) :
    quoted (some s) ++ rest = '\x22' :: (s.toList.flatMap escapeChar ++ '\x22' :: rest) := by
  rw [quoted, Option.getD_some, List.append_assoc, List.cons_append]
  rfl

/-! ## Numbers -/

/-- The text does not go on with a number in front of it. -/
def EndsNumber (cs : List Char) : Prop :=
  ∀ c ∈ cs.head?, c.isDigit = false ∧ c ≠ '.' ∧ c ≠ 'e' ∧ c ≠ 'E'

/-- What ends a number ends its digits. -/
theorem EndsNumber.endsNumeral {cs : List Char} (h : EndsNumber cs) : EndsNumeral cs :=
  fun c hc => (h c hc).1

/-- Digits are read to the end of the numeral. -/
theorem digitsAhead_digits {cs : List Char} (h : EndsNumeral cs) (n : Nat) :
    digitsAhead (digits n ++ cs) = some (digits n, cs) := by
  unfold digitsAhead
  simp only [takeWhile_digits h, dropWhile_digits h, if_neg (digits_ne_nil n)]

theorem fractionAhead_eq_none {cs : List Char} (h : cs.head? ≠ some '.') :
    fractionAhead cs = some (none, cs) := by
  unfold fractionAhead
  split
  · exact absurd rfl h
  · rfl

theorem exponentAhead_eq_none {cs : List Char} (h : EndsNumber cs) :
    exponentAhead cs = some (none, cs) := by
  cases cs with
  | nil => rfl
  | cons c cs =>
    obtain ⟨-, -, he, hE⟩ := h c rfl
    rw [exponentAhead, if_neg (by simp [he, hE])]

/-- An exponent is read as it is written. -/
theorem exponentAhead_plain {cs : List Char} (h : EndsNumeral cs) (e : Int) :
    exponentAhead ('e' :: ((plain e).toList ++ cs)) = some (some e, cs) := by
  rw [exponentAhead, if_pos (Or.inl rfl), splitSign_plain]
  simp only [digitsAhead_digits h, Option.map_some, ofDigits_digits_natAbs]

/-- A magnitude is written without leading zeros. -/
theorem no_leading_zero (n : Nat) : ¬ ((digits n).head? = some '0' ∧ (digits n).length > 1) := by
  rintro ⟨hhead, hlength⟩
  rw [eq_zero_of_head_digits hhead, digits, if_pos (by decide)] at hlength
  exact absurd hlength (by decide)

/-- A number without its sign. -/
def magnitudeText : JsonNumber → List Char
  | .integer _ n => digits n
  | .scaled _ n e => digits n ++ 'e' :: (plain e).toList

/-- Whether a minus sign stands in front of the number. -/
def hasMinus : JsonNumber → Bool
  | .integer negative _ => negative
  | .scaled negative _ _ => negative

/-- A number is written as a sign, if it has one, and a magnitude. -/
theorem numberText_eq (n : JsonNumber) :
    numberText n = (if hasMinus n then ['-'] else []) ++ magnitudeText n := by
  cases n with
  | integer => rfl
  | scaled => exact List.append_assoc _ _ _

/-- A number without its sign begins with a digit. -/
theorem exists_magnitudeText (n : JsonNumber) :
    ∃ c cs, magnitudeText n = c :: cs ∧ c.isDigit = true := by
  have hdigits : ∀ m ds, ∃ c cs, digits m ++ ds = c :: cs ∧ c.isDigit = true := by
    intro m ds
    cases hd : digits m with
    | nil => exact absurd hd (digits_ne_nil m)
    | cons c cs => exact ⟨c, cs ++ ds, rfl, isDigit_of_mem_digits m c (hd ▸ List.mem_cons_self)⟩
  cases n with
  | integer negative m =>
    obtain ⟨c, cs, h, hc⟩ := hdigits m []
    exact ⟨c, cs, by rwa [List.append_nil] at h, hc⟩
  | scaled negative m e => exact hdigits m _

/-- The sign of a number and what is behind it. -/
def signAhead : List Char → Bool × List Char
  | '-' :: rest => (true, rest)
  | cs => (false, cs)

/-- The sign of a number is told from its magnitude. -/
theorem signAhead_numberText (n : JsonNumber) (cs : List Char) :
    signAhead (numberText n ++ cs) = (hasMinus n, magnitudeText n ++ cs) := by
  rw [numberText_eq]
  cases hasMinus n with
  | true => rfl
  | false =>
    obtain ⟨c, ds, hn, hc⟩ := exists_magnitudeText n
    rw [if_neg Bool.false_ne_true, List.nil_append, hn, List.cons_append, signAhead]
    rintro rest ⟨⟩
    exact absurd hc (by decide)

/-- A number behind its sign. -/
def unsignedAhead (negative : Bool) (body : List Char) : Option (JsonNumber × List Char) := do
  let (whole, rest) ← digitsAhead body
  if whole.head? = some '0' ∧ whole.length > 1 then none
  else
    let (fraction, rest) ← fractionAhead rest
    let (exponent, rest) ← exponentAhead rest
    match fraction, exponent with
    | none, none => some (.integer negative (value whole), rest)
    | fraction, exponent =>
      let places := fraction.getD []
      some (.scaled negative (value (whole ++ places)) (exponent.getD 0 - places.length), rest)

theorem numberAhead_eq (cs : List Char) :
    numberAhead cs = unsignedAhead (signAhead cs).1 (signAhead cs).2 := rfl

/-- **A number is read back** in the form in which it was written. -/
theorem numberAhead_numberText (n : JsonNumber) {cs : List Char} (h : EndsNumber cs) :
    numberAhead (numberText n ++ cs) = some (n, cs) := by
  rw [numberAhead_eq, signAhead_numberText]
  cases n with
  | integer negative m =>
    have hpoint : cs.head? ≠ some '.' := fun hc => (h '.' hc).2.1 rfl
    simp only [unsignedAhead, magnitudeText, hasMinus, digitsAhead_digits h.endsNumeral,
      Option.bind_eq_bind,
      Option.bind_some, if_neg (no_leading_zero m), fractionAhead_eq_none hpoint,
      exponentAhead_eq_none h, value_digits]
  | scaled negative m e =>
    have hmark : EndsNumeral ('e' :: ((plain e).toList ++ cs)) := endsNumeral_cons rfl _
    have hpoint : ('e' :: ((plain e).toList ++ cs)).head? ≠ some '.' := by simp
    simp only [unsignedAhead, magnitudeText, hasMinus, List.append_assoc, List.cons_append,
      digitsAhead_digits hmark, Option.bind_eq_bind, Option.bind_some,
      if_neg (no_leading_zero m), fractionAhead_eq_none hpoint,
      exponentAhead_plain h.endsNumeral, Option.getD_none, List.append_nil, Option.getD_some,
      value_digits, List.length_nil, Int.natCast_zero, Int.sub_zero]

/-! ## Values -/

/-- The value reads back, with two steps for every character written. -/
def ReadsBack (j : Json) : Prop :=
  ∀ (fuel : Nat) (rest : List Char), 2 * j.write.length ≤ fuel → EndsNumber rest →
    valueAhead fuel (j.write ++ rest) = some (j, rest)

theorem skip_cons {c : Char} (h : isSpace c = false) (cs : List Char) : skip (c :: cs) = c :: cs :=
  List.dropWhile_cons_of_neg (by rw [h]; exact Bool.false_ne_true)

/-- A text that goes on with one of the separators ends a number. -/
theorem endsNumber_cons {c : Char} (h : c = ',' ∨ c = ']' ∨ c = '\x7d') (cs : List Char) :
    EndsNumber (c :: cs) := by
  rintro d ⟨⟩
  rcases h with rfl | rfl | rfl <;> decide

/-- A number begins with a minus sign or a digit, so with no other character. -/
theorem exists_numberText (n : JsonNumber) :
    ∃ c cs, numberText n = c :: cs ∧ ∀ d, d ≠ '-' → d.isDigit = false → c ≠ d := by
  rw [numberText_eq]
  cases hasMinus n with
  | true => exact ⟨'-', _, rfl, fun d hd _ h => hd h.symm⟩
  | false =>
    obtain ⟨c, cs, h, hc⟩ := exists_magnitudeText n
    refine ⟨c, cs, h, ?_⟩
    rintro d - hdigit rfl
    rw [hc] at hdigit
    cases hdigit

/-- No value begins with a blank or ends an array. -/
theorem exists_write (j : Json) : ∃ c cs, j.write = c :: cs ∧ isSpace c = false ∧ c ≠ ']' := by
  cases j with
  | null => exact ⟨'n', _, rfl, rfl, by decide⟩
  | bool b => cases b <;> exact ⟨_, _, rfl, rfl, by decide⟩
  | number n =>
    obtain ⟨c, cs, h, hother⟩ := exists_numberText n
    refine ⟨c, cs, by rw [write_number, h], ?_, hother ']' (by decide) (by decide)⟩
    simp [isSpace, hother ' ' (by decide) (by decide), hother '\t' (by decide) (by decide),
      hother '\n' (by decide) (by decide), hother '\r' (by decide) (by decide)]
  | string s => exact ⟨'\x22', _, rfl, rfl, by decide⟩
  | array items => cases items <;> exact ⟨'[', _, rfl, rfl, by decide⟩
  | object members => cases members <;> exact ⟨'\x7b', _, rfl, rfl, by decide⟩

/-- No value begins with a space. -/
theorem skip_write (j : Json) (rest : List Char) : skip (j.write ++ rest) = j.write ++ rest := by
  obtain ⟨c, cs, h, hspace, -⟩ := exists_write j
  rw [h, List.cons_append, skip_cons hspace]

/-- A value is never written as nothing, so there is a first step. -/
theorem ReadsBack.of_step {j : Json} (h : ∀ (fuel : Nat) (rest : List Char),
    2 * j.write.length ≤ fuel + 1 → EndsNumber rest →
      valueAhead (fuel + 1) (j.write ++ rest) = some (j, rest)) : ReadsBack j := by
  intro fuel rest hfuel hrest
  obtain ⟨c, cs, hwrite, -⟩ := exists_write j
  have hpos : 0 < j.write.length := by rw [hwrite]; exact Nat.succ_pos _
  obtain ⟨fuel, rfl⟩ := Nat.exists_eq_add_of_lt (show 0 < fuel by omega)
  exact h (0 + fuel) rest hfuel hrest

/-- **A number is read back**, with its notation. -/
theorem readsBack_number (n : JsonNumber) : ReadsBack (number n) := by
  refine .of_step fun fuel rest _ hrest => ?_
  obtain ⟨c, cs, hn, hother⟩ := exists_numberText n
  have hread := numberAhead_numberText n hrest
  rw [valueAhead, skip_write, write_number]
  rw [hn, List.cons_append] at hread ⊢
  simp only [if_neg (hother '\x22' (by decide) (by decide)),
    if_neg (hother '[' (by decide) (by decide)), if_neg (hother '\x7b' (by decide) (by decide)),
    if_neg (hother 'n' (by decide) (by decide)), if_neg (hother 't' (by decide) (by decide)),
    if_neg (hother 'f' (by decide) (by decide)), hread, Option.map_some]

/-- **A text is read back.** -/
theorem readsBack_string (s : String) : ReadsBack (text s) := by
  refine .of_step fun fuel rest _ _ => ?_
  rw [valueAhead, skip_write, text, write_string, quoted_append]
  simp only [if_true, stringBehind_quoted, Option.map_some]

/-- Items behind each other are read up to the end of their array. -/
def ItemsReadBack (items : List Json) : Prop :=
  ∀ (j : Json), ReadsBack j → ∀ (fuel : Nat) (rest : List Char),
    2 * (j.write.length + (writeItems items).length) ≤ fuel →
    itemsAhead fuel (j.write ++ (writeItems items ++ rest)) = some (j :: items, rest)

theorem itemsReadBack_nil : ItemsReadBack [] := by
  intro j hj fuel rest hfuel
  rw [writeItems] at hfuel ⊢
  obtain ⟨fuel, rfl⟩ : ∃ m, fuel = m + 1 := ⟨fuel - 1, by simp at hfuel; omega⟩
  have hvalue := hj fuel ([']'] ++ rest) (by simp at hfuel; omega)
    (endsNumber_cons (.inr (.inl rfl)) _)
  rw [itemsAhead, hvalue]
  rfl

theorem ItemsReadBack.cons {j : Json} {js : List Json} (hj : ReadsBack j) (hjs : ItemsReadBack js) :
    ItemsReadBack (j :: js) := by
  intro i hi fuel rest hfuel
  rw [writeItems] at hfuel ⊢
  simp only [List.cons_append, List.length_cons, List.length_append, List.append_assoc]
    at hfuel ⊢
  obtain ⟨fuel, rfl⟩ : ∃ m, fuel = m + 1 := ⟨fuel - 1, by omega⟩
  have hvalue := hi fuel (',' :: (j.write ++ (writeItems js ++ rest))) (by omega)
    (endsNumber_cons (.inl rfl) _)
  have hitems := hjs j hj fuel rest (by omega)
  rw [itemsAhead, hvalue]
  simp only [Option.bind_eq_bind, Option.bind_some, skip_cons (c := ',') rfl, hitems]

/-- **A list is read back** if its items are. -/
theorem ReadsBack.array {items : List Json} {j : Json} (hj : ReadsBack j)
    (hitems : ItemsReadBack items) : ReadsBack (array (j :: items)) := by
  refine .of_step fun fuel rest hfuel _ => ?_
  rw [valueAhead, skip_write]
  rw [write_array_cons] at hfuel ⊢
  simp only [List.cons_append, List.length_cons, List.length_append, List.append_assoc]
    at hfuel ⊢
  have hread := hitems j hj fuel rest (by omega)
  obtain ⟨c, cs, hwrite, hspace, hend⟩ := exists_write j
  simp only [show ('[' = '\x22') = False by decide, if_false, if_true, skip_write]
  rw [hread, hwrite, List.cons_append]
  split
  · rename_i h
    exact absurd (List.cons.inj h).1 hend
  · rfl

/-- Members behind each other are read up to the end of their object. -/
def MembersReadBack (members : List (Option String × Json)) : Prop :=
  ∀ (name : String) (j : Json), ReadsBack j → ∀ (fuel : Nat) (rest : List Char),
    2 * (j.write.length + (writeMembers members).length) ≤ fuel →
    membersAhead fuel (quoted (some name) ++ (':' :: (j.write ++ (writeMembers members ++ rest)))) =
      some ((some name, j) :: members, rest)

theorem membersReadBack_nil : MembersReadBack [] := by
  intro name j hj fuel rest hfuel
  rw [writeMembers] at hfuel ⊢
  obtain ⟨fuel, rfl⟩ : ∃ m, fuel = m + 1 := ⟨fuel - 1, by simp at hfuel; omega⟩
  have hvalue := hj fuel (['\x7d'] ++ rest) (by simp at hfuel; omega)
    (endsNumber_cons (.inr (.inr rfl)) _)
  rw [quoted_append, membersAhead, skip_cons rfl]
  simp only [stringBehind_quoted, Option.bind_eq_bind, Option.bind_some, skip_cons (c := ':') rfl,
    hvalue]
  rfl

theorem MembersReadBack.cons {name : String} {j : Json} {members : List (Option String × Json)}
    (hj : ReadsBack j) (hmembers : MembersReadBack members) :
    MembersReadBack ((some name, j) :: members) := by
  intro outer i hi fuel rest hfuel
  rw [writeMembers] at hfuel ⊢
  simp only [List.cons_append, List.length_cons, List.length_append, List.append_assoc]
    at hfuel ⊢
  obtain ⟨fuel, rfl⟩ : ∃ m, fuel = m + 1 := ⟨fuel - 1, by omega⟩
  have hvalue := hi fuel
    (',' :: (quoted (some name) ++ (':' :: (j.write ++ (writeMembers members ++ rest)))))
    (by omega) (endsNumber_cons (.inl rfl) _)
  have hread := hmembers name j hj fuel rest (by omega)
  rw [quoted_append outer, membersAhead, skip_cons rfl]
  simp only [stringBehind_quoted, Option.bind_eq_bind, Option.bind_some, skip_cons (c := ':') rfl,
    hvalue, skip_cons (c := ',') rfl, hread]

/-- **An object is read back** if its members are. -/
theorem ReadsBack.object {members : List (Option String × Json)} {name : String} {j : Json}
    (hj : ReadsBack j) (hmembers : MembersReadBack members) :
    ReadsBack (object ((some name, j) :: members)) := by
  refine .of_step fun fuel rest hfuel _ => ?_
  rw [valueAhead, skip_write]
  rw [write_object_cons] at hfuel ⊢
  simp only [List.cons_append, List.length_cons, List.length_append, List.append_assoc]
    at hfuel ⊢
  have hread := hmembers name j hj fuel rest (by omega)
  rw [quoted_append] at hread ⊢
  simp only [show ('\x7b' = '\x22') = False by simp, show ('\x7b' = '[') = False by simp,
    if_false, if_true, skip_cons (c := '\x22') rfl, hread, Option.map_some]
  rfl

mutual

/-- **A sound value reads back.** -/
theorem readsBack : ∀ j : Json, j.isSound = true → ReadsBack j
  | .null, _ => .of_step fun _ _ _ _ => rfl
  | .bool true, _ => .of_step fun _ _ _ _ => rfl
  | .bool false, _ => .of_step fun _ _ _ _ => rfl
  | .number n, _ => readsBack_number n
  | .string (some s), _ => readsBack_string s
  | .array [], _ => .of_step fun _ _ _ _ => rfl
  | .array (j :: js), h =>
    have h := Bool.and_eq_true_iff.mp h
    (readsBack j h.1).array (itemsReadBack js h.2)
  | .object [], _ => .of_step fun _ _ _ _ => rfl
  | .object ((some _, j) :: members), h =>
    have h := Bool.and_eq_true_iff.mp h
    (readsBack j h.1).object (membersReadBack members h.2)

theorem itemsReadBack : ∀ items : List Json, soundItems items = true → ItemsReadBack items
  | [], _ => itemsReadBack_nil
  | j :: js, h =>
    have h := Bool.and_eq_true_iff.mp h
    (itemsReadBack js h.2).cons (readsBack j h.1)

theorem membersReadBack :
    ∀ members : List (Option String × Json), soundMembers members = true → MembersReadBack members
  | [], _ => membersReadBack_nil
  | (some _, j) :: members, h =>
    have h := Bool.and_eq_true_iff.mp h
    (membersReadBack members h.2).cons (readsBack j h.1)

end

/-- **A sound value that was written as a text is read back from it.** -/
theorem parse_compact {j : Json} (h : j.isSound = true) : parse j.compact = some j := by
  have hread := readsBack j h (2 * j.write.length + 2) [] (by omega) (by rintro c ⟨⟩)
  rw [List.append_nil] at hread
  rw [parse, compact, String.toList_ofList]
  simp only [hread, Option.bind_eq_bind, Option.bind_some]
  rfl

end Tabletop.Json
