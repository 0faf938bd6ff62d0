import Tabletop.Json.Fields
import Tabletop.Json.Parser
import Tabletop.Json.Printer
import Tabletop.Proofs.Json.ReadBack

/-!
# Fields read back

What is written into a record is found there again.

* **fields?_record**: a record with different names has just the known fields that were written;
  **get?_cons** looks one up;
* the typed contents read back: integers that can be stored, texts, and what may be null;
* records of such contents are sound (`isSound_record`), which is all that a text needs to read
  back;
* in any value, written here or not, what is read off a field can be stored (`fits_of_int?`,
  `fitsUnsigned_of_nat?`), or is what the field holds without it (`withDefault_holds`).
-/

namespace Tabletop.Json

/-! ## Records -/

/-- Members with other names are skipped. -/
theorem knownMembers_record (names : List String) {members : List (String × Json)}
    (hnodup : (members.map (·.1)).Nodup) :
    knownMembers names (members.map fun (name, value) => (some name, value)) =
      some (members.filter fun m => names.contains m.1) := by
  induction members with
  | nil => rfl
  | cons m members ih =>
    obtain ⟨name, value⟩ := m
    rw [List.map_cons, List.nodup_cons] at hnodup
    have hrest := ih hnodup.2
    have hnew : ((members.filter fun m => names.contains m.1).any fun (other, _) => other == name) =
        false := by
      rw [List.any_eq_false]
      rintro ⟨other, j⟩ hm
      rw [beq_iff_eq]
      rintro rfl
      exact hnodup.1 (List.mem_map.mpr ⟨_, (List.mem_filter.mp hm).1, rfl⟩)
    cases hknown : names.contains name <;>
      simp only [List.map_cons, knownMembers, hrest, Option.bind_eq_bind, Option.bind_some, hknown,
        hnew, Bool.not_true, Bool.not_false, Bool.false_eq_true, if_false, if_true,
        List.filter_cons]

/-- **A record** with different names has just the known fields that were written. -/
theorem fields?_record_filter (names : List String) {members : List (String × Json)}
    (hnodup : (members.map (·.1)).Nodup) :
    (record members).fields? names =
      some ⟨members.filter fun m => names.contains m.1, false⟩ := by
  rw [record, fields?, knownMembers_record names hnodup]
  rfl

/-- A record of known fields, each given once, has these fields. -/
theorem fields?_record {names : List String} {members : List (String × Json)}
    (hnames : ∀ m ∈ members, m.1 ∈ names) (hnodup : (members.map (·.1)).Nodup) :
    (record members).fields? names = some ⟨members, false⟩ := by
  rw [fields?_record_filter names hnodup, List.filter_eq_self.mpr]
  exact fun m hm => List.contains_iff_mem.mpr (hnames m hm)

theorem get?_nil (positional : Bool) (name : String) :
    (⟨[], positional⟩ : Fields).get? name = none := rfl

/-- Of several members of one name the first one is the field. -/
theorem get?_cons (other name : String) (j : Json) (members : List (String × Json))
    (positional : Bool) :
    (⟨(other, j) :: members, positional⟩ : Fields).get? name =
      if other = name then some j else (⟨members, positional⟩ : Fields).get? name := by
  unfold Fields.get?
  by_cases h : other = name
  · have hfound : (other == name) = true := beq_iff_eq.mpr h
    simp only [List.find?_cons, hfound, if_pos h, Option.map_some]
  · have hpassed : (other == name) = false := beq_eq_false_iff_ne.mpr h
    simp only [List.find?_cons, hpassed, if_neg h]

/-! ## Contents -/

/-- An integer that fits is decoded from its own value. -/
theorem int?_int {n : Int} (h : Fits n) : int? (int n) = some n := by
  have hread : JsonNumber.int? (.integer (decide (n < 0)) n.natAbs) = some n := by
    by_cases hn : n < 0
    · rw [decide_eq_true hn, JsonNumber.int?, if_neg (by omega)]
      exact congrArg some (by omega)
    · rw [decide_eq_false hn, JsonNumber.int?]
      exact congrArg some (by omega)
  rw [int, int?, hread, Option.filter_some, decide_eq_true h]
  rfl

/-- A number that a field of 64 bits without a sign can hold. -/
def FitsUnsigned (n : Nat) : Prop := n < 18446744073709551616

theorem nat?_int {n : Nat} (h : FitsUnsigned n) : nat? (int n) = some n := by
  have hread : JsonNumber.int? (.integer (decide ((n : Int) < 0)) (n : Int).natAbs) =
      some (n : Int) := by
    rw [decide_eq_false (by omega), JsonNumber.int?]
    rfl
  have hbounds : (0 : Int) ≤ n ∧ (n : Int) < 18446744073709551616 := by
    unfold FitsUnsigned at h
    omega
  rw [int, nat?, hread, Option.filter_some, decide_eq_true hbounds]
  rfl

theorem text?_text (s : String) : text? (text s) = some s := rfl

/-- What is not null is decoded as it would be without the choice. -/
theorem nullable_of_ne_null {α : Type} {decode : Json → Option α} {j : Json} (h : j ≠ null) :
    nullable decode j = (decode j).map some := by
  cases j with
  | null => exact absurd rfl h
  | _ => rfl

theorem int_ne_null (n : Int) : int n ≠ null := by rintro ⟨⟩

theorem record_ne_null (members : List (String × Json)) : record members ≠ null := by rintro ⟨⟩

theorem nullable_int {n : Int} (h : Fits n) : nullable int? (int n) = some (some n) := by
  rw [nullable_of_ne_null (int_ne_null n), int?_int h]
  rfl

theorem nullable_nat {n : Nat} (h : FitsUnsigned n) : nullable nat? (int n) = some (some n) := by
  rw [nullable_of_ne_null (int_ne_null n), nat?_int h]
  rfl

theorem nullable_text (s : String) : nullable text? (text s) = some (some s) := rfl

/-! ## Sound values -/

theorem isSound_text (s : String) : (text s).isSound = true := rfl

/-- Integers of 64 bits are finite in binary floating point. -/
theorem isSound_int_of_natAbs {n : Int} (h : FitsUnsigned n.natAbs) : (int n).isSound = true := by
  have hfinite : 18446744073709551616 < JsonNumber.overflow := by decide +kernel
  rw [int, isSound, JsonNumber.isFinite, decide_eq_true_eq]
  unfold FitsUnsigned at h
  omega

theorem isSound_int {n : Int} (h : Fits n) : (int n).isSound = true := by
  apply isSound_int_of_natAbs
  unfold Fits minStored maxStored at h
  unfold FitsUnsigned
  omega

theorem isSound_record {members : List (String × Json)} :
    (record members).isSound = true ↔ ∀ m ∈ members, m.2.isSound = true := by
  rw [record, isSound]
  induction members with
  | nil => simp [soundMembers]
  | cons m members ih => simp [soundMembers, ih]

/-! ## What is read -/

/-- What was decoded as an integer fits. -/
theorem fits_of_int? {j : Json} {n : Int} (h : int? j = some n) : Fits n := by
  cases j with
  | number m =>
    obtain ⟨-, hfits⟩ := Option.filter_eq_some_iff.mp h
    exact of_decide_eq_true hfits
  | _ => cases h

theorem fitsUnsigned_of_nat? {j : Json} {n : Nat} (h : nat? j = some n) : FitsUnsigned n := by
  cases j with
  | number m =>
    obtain ⟨i, hi, rfl⟩ := Option.map_eq_some_iff.mp h
    obtain ⟨-, hbounds⟩ := Option.filter_eq_some_iff.mp hi
    have hlt := (of_decide_eq_true hbounds).2
    unfold FitsUnsigned
    omega
  | _ => cases h

section Holds

variable {α : Type} {P : α → Prop} {decode : Json → Option α}

/-- **A field with a default** holds what its values and the default have in common. -/
theorem withDefault_holds {f : Fields} {name : String} {default a : α} (hdefault : P default)
    (hdecode : ∀ j a, decode j = some a → P a)
    (h : f.withDefault name default decode = some a) : P a := by
  unfold Fields.withDefault at h
  split at h
  · exact hdecode _ a h
  · cases h
    exact hdefault

/-- What holds of all that is decoded holds where null may stand, too. -/
theorem nullable_holds {j : Json} {o : Option α} (hdecode : ∀ j a, decode j = some a → P a)
    (h : nullable decode j = some o) : ∀ a ∈ o, P a := by
  unfold nullable at h
  split at h
  · cases h
    rintro a ⟨⟩
  · obtain ⟨b, hb, rfl⟩ := Option.map_eq_some_iff.mp h
    rintro a ⟨⟩
    exact hdecode _ b hb

end Holds

end Tabletop.Json
