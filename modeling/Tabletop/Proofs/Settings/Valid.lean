import Mathlib.Data.Int.Notation
import Mathlib.Data.Nat.Notation
import Mathlib.Logic.Basic
import Mathlib.Tactic.SplitIfs
import Tabletop.Proofs.Json.Fields
import Tabletop.Settings

/-!
# Settings that are accepted

Settings are read from any JSON text, where most may be missing, and checked once. Is what passes
sound, and does it pass again when it is stored?

* **IsValid** says what settings must be like, whatever text they came from; the check admits just
  these (`check_eq_ok_iff`), and the standard settings are among them (`isValid_standard`);
* settings are **found again** in their own JSON, if their numbers are such as the fields can hold
  (`decode?_encode`). No field is missing there, so that no default takes the place of a value;
* what is read has such numbers, whichever fields were given (`numbersFit_of_decode?`).

Hence the settings that are accepted are the valid ones, and they are accepted back from their own
JSON (`accepted_valid`).
-/

namespace Tabletop

open Json

/-! ## Limits and starter of comments -/

namespace CommentSettings

variable {s : CommentSettings}

/-- Limits that a field of 64 bits can hold. -/
structure NumbersFit (s : CommentSettings) : Prop where
  maxComments : ∀ n ∈ s.maxComments, FitsUnsigned n
  maxLines : ∀ n ∈ s.maxLines, FitsUnsigned n

/-- Comments may be read: no limit is zero, and the starter is not blank. -/
structure IsValid (s : CommentSettings) : Prop where
  maxComments : s.maxComments ≠ some 0
  maxLines : s.maxLines ≠ some 0
  starter : ∃ c ∈ s.starter.toList, Text.isBlank c = false

/-- Limits pass if they are valid. -/
theorem check_eq_ok_iff : s.check = .ok () ↔ s.IsValid := by
  have hblank : Text.isBlankText s.starter.toList = true ↔
      ¬ ∃ c ∈ s.starter.toList, Text.isBlank c = false := by
    simp [Text.isBlankText]
  unfold check
  constructor
  · intro h
    split_ifs at h with hstarter hcomments hlines
    exact ⟨hcomments, hlines, not_not.mp (mt hblank.mpr hstarter)⟩
  · intro h
    rw [if_neg (mt hblank.mp (not_not.mpr h.starter)), if_neg h.maxComments, if_neg h.maxLines]

theorem isValid_standard : standard.IsValid := check_eq_ok_iff.mp rfl

/-- A limit or its absence is read back from what is written for it. -/
theorem nullable_limit {limit : Option ℕ} (h : ∀ n ∈ limit, FitsUnsigned n) :
    nullable nat? (Json.ofOption (fun n => .int n) (limit.bind fun n => some (n : ℤ))) =
      some limit := by
  cases limit with
  | none => rfl
  | some n => exact nullable_nat (h n rfl)

theorem isSound_limit {limit : Option ℕ} (h : ∀ n ∈ limit, FitsUnsigned n) :
    (Json.ofOption (fun n => .int n) (limit.bind fun n => some (n : ℤ))).isSound = true := by
  cases limit with
  | none => rfl
  | some n => exact isSound_int_of_natAbs (h n rfl)

/-- Limits come back from their record if their numbers fit. -/
theorem decode?_encode (h : s.NumbersFit) : decode? s.encode = some s := by
  rw [encode, decode?, fields?_record (by simp) (by simp)]
  simp [Fields.withDefault, get?_cons, nullable_limit h.maxComments, nullable_limit h.maxLines,
    text?_text]

theorem isSound_encode (h : s.NumbersFit) : s.encode.isSound = true := by
  rw [encode, isSound_record]
  simp [isSound_limit h.maxComments, isSound_limit h.maxLines, isSound_text]

theorem numbersFit_standard : standard.NumbersFit := ⟨by rintro n ⟨⟩, by rintro n ⟨⟩⟩

theorem numbersFit_of_decode? {j : Json} (h : decode? j = some s) : s.NumbersFit := by
  have hlimit : ∀ j o, nullable nat? j = some o → ∀ n ∈ o, FitsUnsigned n :=
    fun j o => nullable_holds fun _ _ => fitsUnsigned_of_nat?
  simp only [decode?, Option.bind_eq_bind, Option.bind_eq_some_iff] at h
  obtain ⟨f, -, maxComments, hcomments, maxLines, hlines, starter, -, h⟩ := h
  cases h
  exact ⟨withDefault_holds (by rintro n ⟨⟩) hlimit hcomments,
    withDefault_holds (by rintro n ⟨⟩) hlimit hlines⟩

end CommentSettings

/-! ## Levels of simplification -/

namespace Levels

variable {l : Levels}

theorem mem_all (d : Dimension) : d ∈ Dimension.all := by
  cases d <;> decide

theorem check_eq_ok_iff : l.check = .ok () ↔ ∀ d, 1 ≤ l.of d := by
  unfold check
  cases hfind : Dimension.all.find? fun d => l.of d < 1 with
  | some d =>
    have hd := List.find?_some hfind
    refine iff_of_false (by rintro ⟨⟩) fun h => ?_
    have hle := h d
    rw [decide_eq_true_eq] at hd
    omega
  | none =>
    refine iff_of_true rfl fun d => ?_
    have hd := List.find?_eq_none.mp hfind d (mem_all d)
    rw [decide_eq_true_eq] at hd
    omega

/-- The record of levels has the level of every dimension under its name. -/
theorem get?_encode (l : Levels) (d : Dimension) :
    (⟨Dimension.all.map fun d => (d.name, .int (l.of d)), false⟩ : Fields).get? d.name =
      some (.int (l.of d)) := by
  cases d <;> simp [Dimension.all, Dimension.name, get?_cons]

/-- **Levels are found again** under the names of their dimensions. -/
theorem decode?_encode (h : ∀ d, Fits (l.of d)) : decode? l.encode = some l := by
  have hnames : ((Dimension.all.map fun d => (d.name, Json.int (l.of d))).map (·.1)).Nodup := by
    simp [Dimension.all, Dimension.name]
  have hlevel : ∀ d : Dimension,
      (⟨Dimension.all.map fun d => (d.name, .int (l.of d)), false⟩ : Fields).withDefault d.name
        d.level int? = some (l.of d) := by
    intro d
    rw [Fields.withDefault, get?_encode]
    exact int?_int (h d)
  have hknown : ∀ m ∈ Dimension.all.map fun d => (d.name, Json.int (l.of d)),
      m.1 ∈ Dimension.all.map Dimension.name := by
    intro m hm
    obtain ⟨d, hd, rfl⟩ := List.mem_map.mp hm
    exact List.mem_map_of_mem hd
  rw [encode, decode?, fields?_record hknown hnames]
  simp only [Option.bind_eq_bind, Option.bind_some, hlevel]
  rfl

theorem isSound_encode (h : ∀ d, Fits (l.of d)) : l.encode.isSound = true := by
  rw [encode, isSound_record]
  intro m hm
  obtain ⟨d, -, rfl⟩ := List.mem_map.mp hm
  exact isSound_int (h d)

theorem of_standard (d : Dimension) : standard.of d = d.level := by
  cases d <;> rfl

theorem fits_level (d : Dimension) : Fits d.level := by
  cases d <;> decide

theorem fits_of_decode? {j : Json} (h : decode? j = some l) : ∀ d, Fits (l.of d) := by
  simp only [decode?, Option.bind_eq_bind, Option.bind_eq_some_iff] at h
  obtain ⟨f, -, distance, h₁, area, h₂, duration, h₃, volume, h₄, weight, h₅, money, h₆, h⟩ := h
  have hfits : ∀ (d : Dimension) (n : ℤ), f.withDefault d.name d.level int? = some n → Fits n :=
    fun d n => withDefault_holds (fits_level d) fun _ _ => fits_of_int?
  cases h
  intro d
  cases d with
  | distance => exact hfits _ _ h₁
  | area => exact hfits _ _ h₂
  | duration => exact hfits _ _ h₃
  | volume => exact hfits _ _ h₄
  | weight => exact hfits _ _ h₅
  | money => exact hfits _ _ h₆

end Levels

/-! ## Settings -/

namespace Settings

variable {s : Settings}

/-- Numbers that the fields can hold: levels of 64 bits with a sign, limits and a seed of 64 bits
without one. -/
structure NumbersFit (s : Settings) : Prop where
  comment : s.comment.NumbersFit
  simplify : ∀ d, Fits (s.simplify.of d)
  diceSeed : ∀ n ∈ s.diceSeed, FitsUnsigned n

/-- Settings to work with: comments may be read, and every level is at least one. -/
structure IsValid (s : Settings) : Prop where
  comment : s.comment.IsValid
  simplify : ∀ d, 1 ≤ s.simplify.of d

/-- **The check admits just the valid settings.** -/
theorem check_eq_ok_iff : s.check = .ok () ↔ s.IsValid := by
  have hcheck : s.check = .ok () ↔ s.comment.check = .ok () ∧ s.simplify.check = .ok () := by
    unfold check
    cases s.comment.check with
    | ok => exact (and_iff_right rfl).symm
    | error e => exact iff_of_false (by rintro ⟨⟩) (by rintro ⟨⟨⟩, -⟩)
  rw [hcheck, CommentSettings.check_eq_ok_iff, Levels.check_eq_ok_iff]
  exact ⟨fun h => ⟨h.1, h.2⟩, fun h => ⟨h.comment, h.simplify⟩⟩

/-- **The standard settings** pass their own check. -/
theorem isValid_standard : standard.IsValid := by
  refine ⟨CommentSettings.isValid_standard, fun d => ?_⟩
  cases d <;> decide

/-- **Settings are found again** in their own JSON. -/
theorem decode?_encode (h : s.NumbersFit) : decode? s.encode = some s := by
  rw [encode, decode?, fields?_record (by simp) (by simp)]
  simp [Fields.withDefault, get?_cons, CommentSettings.decode?_encode h.comment,
    Levels.decode?_encode h.simplify, CommentSettings.nullable_limit h.diceSeed]

theorem isSound_encode (h : s.NumbersFit) : s.encode.isSound = true := by
  rw [encode, isSound_record]
  simp [CommentSettings.isSound_encode h.comment, Levels.isSound_encode h.simplify,
    CommentSettings.isSound_limit h.diceSeed]

theorem numbersFit_of_decode? {j : Json} (h : decode? j = some s) : s.NumbersFit := by
  simp only [decode?, Option.bind_eq_bind, Option.bind_eq_some_iff] at h
  obtain ⟨f, -, comment, hcomment, simplify, hsimplify, diceSeed, hseed, h⟩ := h
  cases h
  refine ⟨?_, ?_, ?_⟩
  · exact withDefault_holds CommentSettings.numbersFit_standard
      (fun _ _ => CommentSettings.numbersFit_of_decode?) hcomment
  · exact withDefault_holds (fun d => Levels.of_standard d ▸ Levels.fits_level d)
      (fun _ _ => Levels.fits_of_decode?) hsimplify
  · exact withDefault_holds (by rintro n ⟨⟩)
      (fun _ _ => nullable_holds fun _ _ => fitsUnsigned_of_nat?) hseed

/-! ## Accepted texts -/

/-- A text is accepted if it gives settings and these are valid. -/
theorem ofJson_eq_ok_iff {source : String} :
    ofJson source = .ok s ↔ (Json.parse source).bind decode? = some s ∧ s.IsValid := by
  rw [← check_eq_ok_iff]
  unfold ofJson
  cases (Json.parse source).bind decode? with
  | none => exact iff_of_false (by rintro ⟨⟩) (by rintro ⟨⟨⟩, -⟩)
  | some t =>
    simp only [Option.some.injEq]
    cases hcheck : t.check with
    | ok =>
      constructor
      · rintro ⟨⟩
        exact ⟨rfl, hcheck⟩
      · rintro ⟨rfl, -⟩
        rfl
    | error e =>
      refine iff_of_false (by rintro ⟨⟩) ?_
      rintro ⟨rfl, hok⟩
      rw [hok] at hcheck
      cases hcheck

/-- Settings with numbers that fit are accepted back exactly if they are valid. -/
theorem ofJson_toJson_iff (h : s.NumbersFit) : ofJson s.toJson = .ok s ↔ s.IsValid := by
  have hread : (Json.parse s.toJson).bind decode? = some s := by
    rw [toJson, parse_compact (isSound_encode h)]
    exact decode?_encode h
  rw [ofJson_eq_ok_iff, and_iff_right hread]

/-- **What is accepted is valid and stable.** Settings accepted from any text are valid, and they
are accepted back from their own JSON; of all settings whose numbers the fields can hold, just the
valid ones are. -/
theorem accepted_valid :
    (∀ (source : String) (s : Settings), ofJson source = .ok s →
      s.IsValid ∧ s.NumbersFit ∧ ofJson s.toJson = .ok s) ∧
    ∀ s : Settings, s.NumbersFit → (ofJson s.toJson = .ok s ↔ s.IsValid) := by
  refine ⟨fun source s h => ?_, fun s => ofJson_toJson_iff⟩
  obtain ⟨hread, hvalid⟩ := ofJson_eq_ok_iff.mp h
  obtain ⟨j, -, hdecode⟩ := Option.bind_eq_some_iff.mp hread
  have hfit := numbersFit_of_decode? hdecode
  exact ⟨hvalid, hfit, (ofJson_toJson_iff hfit).mpr hvalid⟩

/-- Comments by position, with a quote and a control character for their starter, one level, and the
greatest seed; and the same with a level of zero. -/
theorem accepted_valid_quoted :
    let source := "\x7b\"dice_seed\": 18446744073709551615, " ++
      "\"simplify\": \x7b\"weight\": 16\x7d, \"comment\": [null, 2, \"\\\"\\u0007\"]\x7d"
    let s : Settings :=
      ⟨⟨none, some 2, "\"\x07"⟩, { Levels.standard with weight := 16 }, some 18446744073709551615⟩
    let flat : Settings := { s with simplify := { s.simplify with weight := 0 } }
    ofJson source = .ok s ∧ s.IsValid ∧ ofJson s.toJson = .ok s ∧
      ofJson flat.toJson ≠ .ok flat := by
  intro source s flat
  have hlevels : ∀ d, 1 ≤ s.simplify.of d := by
    intro d
    cases d <;> decide
  have hread : ofJson source = .ok s :=
    ofJson_eq_ok_iff.mpr
      ⟨by decide +kernel, ⟨by decide, by decide, '\x22', by decide +kernel, rfl⟩, hlevels⟩
  obtain ⟨hvalid, hfit, hback⟩ := accepted_valid.1 source s hread
  have hflat : flat.NumbersFit := by
    refine ⟨hfit.comment, fun d => ?_, hfit.diceSeed⟩
    cases d <;> decide
  refine ⟨hread, hvalid, hback, fun h => ?_⟩
  have hlevel := ((accepted_valid.2 flat hflat).mp h).simplify .weight
  exact absurd hlevel (by decide)

end Settings

end Tabletop
