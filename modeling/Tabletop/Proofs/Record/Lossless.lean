import Tabletop.Proofs.Record.Adjustments
import Tabletop.Proofs.Record.Numbers

/-!
# Records as JSON texts

A record is written as a JSON text and read back from it. The text loses nothing, since any sound
value reads back from what was written (`Json.parse_compact`), and records of stored numbers and of
any texts are sound. So what can be restored from its record is restored from the text as well
(`ofJson_toJson`), and **the structured records are lossless through JSON** (`toJson_lossless`).
-/

namespace Tabletop.Record

/-- What is restored from its record is restored from the text of the record. -/
theorem ofJson_toJson {α : Type} [Recorded α] {a : α}
    (hsound : (Recorded.encode a : Json).isSound = true)
    (h : Recorded.decode (Recorded.encode a) = .ok a) : ofJson (toJson a) = .ok a := by
  rw [ofJson, toJson, Json.parse_compact hsound]
  exact h

/-- **Structured records are lossless through JSON**: those of undefined rationals and of rationals
in lowest terms, of dice and expressions however they were obtained, and of modifiers with as many
links as records may be nested, whatever their conditions say. -/
theorem toJson_lossless :
    (∀ r : Rational, r = .undefined ∨ r.InLowestTerms → ofJson (toJson r) = .ok r) ∧
    (∀ d : Dice, Dice.Obtained d → ofJson (toJson d) = .ok d) ∧
    (∀ e : Expression, Expression.Obtained e → ofJson (toJson e) = .ok e) ∧
    ∀ m : Modifier, m.links.length ≤ 127 → (∀ b ∈ m.links, Fits b.value) →
      ofJson (toJson m) = .ok m := by
  refine ⟨fun r hr => ?_, fun d hd => ?_, fun e he => ?_, fun m hlength hfits => ?_⟩
  · have hcanonical := Rational.canonical_iff.mpr hr
    exact ofJson_toJson hcanonical.isSound_encode hcanonical.decode_encode
  · exact ofJson_toJson hd.sound.isSound_encode hd.sound.decode_encode
  · exact ofJson_toJson (Expression.isSound_ofExpression he.sound.2) he.decode_encode
  · exact ofJson_toJson (isSound_ofBonus hfits) (Modifier.decode_encode hlength hfits)

/-- A third below zero, dice with a penalty, a price and half of it, and a bonus under a condition
with quotes, a backslash, a control character and letters beyond ASCII. -/
theorem toJson_lossless_quoted :
    let condition := "a \"b\" \\ \x07 \u00e9"
    ofJson (toJson (⟨true, 0, 1, 3⟩ : Rational)) = .ok (⟨true, 0, 1, 3⟩ : Rational) ∧
    ofJson (toJson (⟨2, 6, -1⟩ : Dice)) = .ok (⟨2, 6, -1⟩ : Dice) ∧
    ofJson (toJson (.factor 3 2 : Expression)) = .ok (.factor 3 2 : Expression) ∧
    ofJson (toJson (⟨⟨2, .dodge, some condition⟩, [⟨-1, .size, none⟩]⟩ : Modifier)) =
      .ok (⟨⟨2, .dodge, some condition⟩, [⟨-1, .size, none⟩]⟩ : Modifier) := by
  intro condition
  obtain ⟨hrational, hdice, hexpression, hmodifier⟩ := toJson_lossless
  refine ⟨hrational _ (.inr (by decide)), hdice _ ?_, hexpression _ ?_, hmodifier _ (by decide) ?_⟩
  · have hmade : Dice.make 2 6 (-1) = .ok ⟨2, 6, -1⟩ := rfl
    exact .make (by decide) hmade
  · have hmade : expressionOf (.factor 3 2) = .ok (.factor 3 2) := rfl
    have hparts : Expression.NumbersFit (.factor 3 2) := ⟨by decide, by decide⟩
    exact .restore hparts hmade
  · simp [Modifier.links, Fits, minStored, maxStored]

end Tabletop.Record
