import Tabletop.Proofs.Expression.Checked
import Tabletop.Proofs.Json.Fields
import Tabletop.Record.Adjustments

/-!
# Records of modifiers and expressions, restored

* the record of a **chain of bonuses** has one more record nested in it for every further bonus, and
  so is restored if there is room for all of them (`Modifier.decode_encode`);
* an **expression** passes the checks again if it passed them once and its numbers can be stored
  (`Expression.IsStorable`). So it is with whatever is read from a text or from a record
  (`Expression.Obtained.sound`), which is restored from its record
  (`Expression.Obtained.decode_encode`).
-/

namespace Tabletop

open Json Record

/-! ## Modifiers -/

/-- Every type of bonus has a key of its own. -/
theorem BonusType.ofKey?_key (kind : BonusType) : ofKey? kind.key = some kind := by
  cases kind <;> decide

/-- The fields of a bonus: those without a value are left out. -/
theorem fields?_ofBonus (b : Bonus) (next : Option Json) :
    (ofBonus b next).fields? ["value", "type", "condition", "next"] =
      some ⟨[("value", .int b.value), ("type", .text b.kind.key)]
        ++ (b.condition.map fun condition => ("condition", Json.text condition)).toList
        ++ (next.map fun chain => ("next", chain)).toList, false⟩ := by
  refine fields?_record ?_ ?_ <;> cases b.condition <;> cases next <;> simp

/-- **A chain of bonuses** is found in nested records if there is room for all. -/
theorem bonuses?_ofBonus {b : Bonus} {bs : List Bonus} {room : Nat} (hroom : bs.length < room)
    (hfits : ∀ c ∈ b :: bs, Fits c.value) :
    bonuses? room (ofBonus b (ofBonuses bs)) = some (b :: bs) := by
  obtain ⟨room, rfl⟩ : ∃ n, room = n + 1 := ⟨room - 1, by omega⟩
  have hvalue := int?_int (hfits b List.mem_cons_self)
  have hkind : keyword? BonusType.ofKey? (some room) (.text b.kind.key) = some b.kind :=
    b.kind.ofKey?_key
  rw [bonuses?, fields?_ofBonus]
  cases bs with
  | nil =>
    obtain ⟨value, kind, _ | condition⟩ := b <;>
      simp [ofBonuses, Fields.required, Fields.withDefault, get?_cons, get?_nil, hvalue, hkind,
        nullable_text]
  | cons c bs =>
    have hnext := bonuses?_ofBonus (Nat.lt_of_succ_lt_succ hroom)
      fun d hd => hfits d (List.mem_cons_of_mem b hd)
    have hchain : nullable (bonuses? room) (ofBonus c (ofBonuses bs)) = some (some (c :: bs)) := by
      rw [nullable_of_ne_null (by rintro ⟨⟩), hnext]
      rfl
    obtain ⟨value, kind, _ | condition⟩ := b <;>
      simp [ofBonuses, Fields.required, Fields.withDefault, get?_cons, get?_nil, hvalue, hkind,
        nullable_text, hchain]

/-- A record of bonuses is sound. -/
theorem isSound_ofBonus {b : Bonus} {bs : List Bonus} (hfits : ∀ c ∈ b :: bs, Fits c.value) :
    (ofBonus b (ofBonuses bs)).isSound = true := by
  have hvalue := isSound_int (hfits b List.mem_cons_self)
  rw [ofBonus, isSound_record]
  cases bs with
  | nil => cases b.condition <;> simp [ofBonuses, hvalue, isSound_text]
  | cons c bs =>
    have hnext := isSound_ofBonus fun d hd => hfits d (List.mem_cons_of_mem b hd)
    cases b.condition <;> simp [ofBonuses, hvalue, isSound_text, hnext]

/-- **A chain of bonuses is restored** from its record if the records may be nested as deep. -/
theorem Modifier.decode_encode {m : Modifier} (hlength : m.links.length ≤ Json.maxDepth)
    (hfits : ∀ b ∈ m.links, Fits b.value) : Recorded.decode (Recorded.encode m) = .ok m := by
  have hroom : m.others.length < Json.maxDepth := hlength
  simp only [Recorded.decode, Recorded.encode, bonuses?_ofBonus hroom hfits]
  rfl

/-! ## Expressions -/

namespace Expression

/-- The numbers of the expression can be stored, and the caster level of a magic item is at least
the lowest one. -/
def IsStorable : Expression → Prop
  | .magicArmor plus | .magicWeapon plus => Fits plus
  | .magicItem _ spellLevel casterLevel material xp =>
    MagicItem.minimumCasterLevel spellLevel ≤ casterLevel ∧ Fits spellLevel ∧ Fits casterLevel ∧
      Fits material ∧ Fits xp
  | .factor multiply divide => Fits multiply ∧ Fits divide
  | .equal _ => True

/-- An expression from a text has numbers that fit. -/
theorem isStorable_of_parse {source : String} {e : Expression} (h : parse source = .ok e) :
    e.IsStorable := by
  have hwritten := isWritten_of_parse h
  cases e with
  | magicArmor plus => exact hwritten.fits
  | magicWeapon plus => exact hwritten.fits
  | magicItem item spellLevel casterLevel material xp =>
    obtain ⟨⟨hspell, hcaster, hmaterial, hxp⟩, hlevel⟩ := hwritten
    exact ⟨hlevel, hspell.fits, hcaster.fits, hmaterial.fits, hxp.fits⟩
  | factor multiply divide => exact ⟨hwritten.1.fits, hwritten.2.1.fits⟩
  | equal source => trivial

/-- The numbers in a record can be stored. -/
def NumbersFit : ExpressionParts → Prop
  | .magicArmor plus | .magicWeapon plus => Fits plus
  | .magicItem _ spellLevel casterLevel material xp =>
    Fits spellLevel ∧ (∀ n ∈ casterLevel, Fits n) ∧ Fits material ∧ Fits xp
  | .factor multiply divide => Fits multiply ∧ Fits divide
  | .equal _ => True

/-- An expression from a record has numbers that fit if those of the record do. -/
theorem isStorable_of_expressionOf {parts : ExpressionParts} {e : Expression}
    (hparts : NumbersFit parts) (h : expressionOf parts = .ok e) : e.IsStorable := by
  cases parts with
  | magicItem item spellLevel casterLevel material xp =>
    obtain ⟨hspell, hcaster, hmaterial, hxp⟩ := hparts
    obtain ⟨hlevel, -, -, rfl⟩ := makeItem_withCosts_eq_ok_iff.mp h
    refine ⟨hlevel, hspell, ?_, hmaterial, hxp⟩
    cases casterLevel with
    | none => exact (isArgument_minimumCasterLevel spellLevel).fits
    | some n => exact hcaster n rfl
  | factor multiply divide =>
    obtain ⟨-, rfl⟩ := makeFactor_eq_ok_iff.mp h
    exact hparts
  | _ =>
    cases h
    exact hparts

/-- Expressions that are read from a text, or restored from the contents of a record. -/
inductive Obtained : Expression → Prop
  | parse {source : String} {e : Expression} (h : parse source = .ok e) : Obtained e
  | restore {parts : ExpressionParts} {e : Expression} (hparts : NumbersFit parts)
    (h : expressionOf parts = .ok e) : Obtained e

/-- **Expressions that can be obtained** are checked, and their numbers fit. -/
theorem Obtained.sound {e : Expression} (h : Obtained e) : e.IsChecked ∧ e.IsStorable := by
  cases h with
  | parse h => exact ⟨isChecked_of_parse h, isStorable_of_parse h⟩
  | restore hparts h => exact ⟨isChecked_of_expressionOf h, isStorable_of_expressionOf hparts h⟩

/-- The contents of an expression's record. -/
def parts : Expression → ExpressionParts
  | .magicArmor plus => .magicArmor plus
  | .magicWeapon plus => .magicWeapon plus
  | .magicItem item spellLevel casterLevel material xp =>
    .magicItem item spellLevel (some casterLevel) material xp
  | .factor multiply divide => .factor multiply divide
  | .equal source => .equal source

/-- The contents of a record pass the checks that the expression passed. -/
theorem expressionOf_parts {e : Expression} (hchecked : e.IsChecked) (hstorable : e.IsStorable) :
    expressionOf e.parts = .ok e := by
  cases e with
  | magicArmor plus => rfl
  | magicWeapon plus => rfl
  | magicItem item spellLevel casterLevel material xp =>
    exact makeItem_withCosts_eq_ok_iff.mpr ⟨hstorable.1, hchecked.1, hchecked.2, rfl⟩
  | factor multiply divide => exact if_neg hchecked
  | equal source => rfl

theorem isSound_ofExpression {e : Expression} (h : e.IsStorable) :
    (ofExpression e).isSound = true := by
  cases e with
  | magicArmor plus => simp [ofExpression, isSound_record, isSound_text, isSound_int h]
  | magicWeapon plus => simp [ofExpression, isSound_record, isSound_text, isSound_int h]
  | magicItem item spellLevel casterLevel material xp =>
    obtain ⟨-, hspell, hcaster, hmaterial, hxp⟩ := h
    by_cases hm : material = 0 <;> by_cases hx : xp = 0 <;>
      simp [ofExpression, unlessZero, hm, hx, isSound_record, isSound_text, isSound_int hspell,
        isSound_int hcaster, isSound_int hmaterial, isSound_int hxp]
  | factor multiply divide =>
    simp [ofExpression, isSound_record, isSound_text, isSound_int h.1, isSound_int h.2]
  | equal source => simp [ofExpression, isSound_record, isSound_text]

/-- A record without other records in it is not nested deep. -/
theorem depth_ofExpression (e : Expression) : (ofExpression e).depth ≤ Json.maxDepth := by
  have hdepth : (ofExpression e).depth = 1 := by
    cases e with
    | magicItem item spellLevel casterLevel material xp =>
      by_cases hm : material = 0 <;> by_cases hx : xp = 0 <;>
        simp [ofExpression, unlessZero, hm, hx, record, depth, depthMembers, int, Json.text]
    | _ => rfl
  rw [hdepth]
  decide

/-- The form is taken out of a record, and the other members are left. -/
theorem tagged?_record {form : String} {members : List (String × Json)}
    (hnodup : ("expression" :: members.map (·.1)).Nodup) :
    tagged? "expression" (.record (("expression", .text form) :: members)) =
      some (form, .record members) := by
  have hother : ∀ m ∈ members, m.1 ≠ "expression" := fun m hm hname =>
    (List.nodup_cons.mp hnodup).1 (hname ▸ List.mem_map_of_mem hm)
  have hfields : fields? ["expression"] (.record (("expression", .text form) :: members)) =
      some ⟨[("expression", .text form)], false⟩ := by
    rw [fields?_record_filter _ (by simpa using hnodup), List.filter_cons_of_pos (by simp),
      List.filter_eq_nil_iff.mpr]
    intro m hm
    simpa using hother m hm
  have hrest : ((("expression", Json.text form) :: members).map
      fun m : String × Json => (some m.1, m.2)).filter
      (fun m : Option String × Json => m.1 ≠ some "expression") =
        members.map fun m => (some m.1, m.2) := by
    rw [List.map_cons, List.filter_cons_of_neg (by simp)]
    refine List.filter_eq_self.mpr fun m hm => ?_
    obtain ⟨m, hmem, rfl⟩ := List.mem_map.mp hm
    simpa using hother m hmem
  change (do
    let f ← fields? ["expression"] (.record (("expression", .text form) :: members))
    let found ← f.required "expression" text?
    some (found, Json.object (((("expression", Json.text form) :: members).map
      fun m : String × Json => (some m.1, m.2)).filter
        (fun m : Option String × Json => m.1 ≠ some "expression")))) = _
  rw [hfields, hrest]
  rfl

/-- **The contents of an expression** are found in its record. -/
theorem expressionParts?_ofExpression {e : Expression} (h : e.IsStorable) :
    expressionParts? (ofExpression e) = some e.parts := by
  rw [expressionParts?, if_pos ⟨depth_ofExpression e, isSound_ofExpression h⟩]
  cases e with
  | magicArmor plus =>
    rw [ofExpression, tagged?_record (by simp)]
    simp [formParts?, fields?_record, Fields.required, get?_cons, int?_int (show Fits plus from h),
      parts]
  | magicWeapon plus =>
    rw [ofExpression, tagged?_record (by simp)]
    simp [formParts?, fields?_record, Fields.required, get?_cons, int?_int (show Fits plus from h),
      parts]
  | magicItem item spellLevel casterLevel material xp =>
    obtain ⟨-, hspell, hcaster, hmaterial, hxp⟩ := h
    have hitem : keyword? MagicItem.ofName? none (.text item.name) = some item := by
      cases item <;> decide
    rw [ofExpression, List.cons_append, List.cons_append]
    by_cases hm : material = 0 <;> by_cases hx : xp = 0 <;>
      rw [tagged?_record (by simp [unlessZero, hm, hx])] <;>
      simp [formParts?, fields?_record, Fields.required, Fields.withDefault, get?_cons, get?_nil,
        unlessZero, hm, hx, int?_int hspell, nullable_int hcaster, int?_int hmaterial,
        int?_int hxp, hitem, parts]
  | factor multiply divide =>
    rw [ofExpression, tagged?_record (by simp)]
    simp [formParts?, fields?_record, Fields.required, Fields.withDefault, get?_cons,
      int?_int h.1, int?_int h.2, parts]
  | equal source =>
    rw [ofExpression, tagged?_record (by simp)]
    simp [formParts?, fields?_record, Fields.required, get?_cons, text?_text, parts]

/-- **An expression is restored** from its record. -/
theorem Obtained.decode_encode {e : Expression} (h : Obtained e) :
    Recorded.decode (Recorded.encode e) = .ok e := by
  obtain ⟨hchecked, hstorable⟩ := h.sound
  change (do expressionOf (← shaped (expressionParts? (ofExpression e)))) = Except.ok e
  rw [expressionParts?_ofExpression hstorable]
  exact expressionOf_parts hchecked hstorable

end Expression

end Tabletop
