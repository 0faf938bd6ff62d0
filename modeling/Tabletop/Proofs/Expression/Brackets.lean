import Tabletop.Proofs.Expression.Grammar

/-!
# Where an expression ends

An expression is read in two ways. A whole text is an expression if it begins with an opening bracket
and ends with a closing one, blanks around it apart; an expression in front of other text ends at the
first closing bracket. Do both find the same, where only blanks follow?

They do if no closing bracket stands in between. Rows, commas and slashes have none
(`Body.notMem_iff`), but the text of a replacement may be anything. So both ways agree **exactly for
the expressions without such a bracket** (`read_whole_iff`): what is read in front of a text is always
what the whole text is read as, but a whole text with a bracket in it is cut short by the other way
(`read_cuts_replacement`).
-/

namespace Tabletop.Expression

open Text

variable {ds cs body : List Char} {n : Int} {ns : List Int} {e : Expression}

/-- No closing bracket stands in the text of a replacement. -/
def IsUnbracketed : Expression → Prop
  | .equal source => ']' ∉ source.toList
  | _ => True

instance : DecidablePred IsUnbracketed
  | .equal source => inferInstanceAs (Decidable (']' ∉ source.toList))
  | .magicArmor _ | .magicWeapon _ | .magicItem .. | .factor .. => isTrue trivial

theorem mem_trimStart_bracket : ']' ∈ trimStart cs ↔ ']' ∈ cs := mem_trimStart_iff (by decide)

theorem IsRow.notMem_bracket (h : IsRow ds n) : ']' ∉ ds := h.notMem (by decide)

theorem Divisor.notMem_bracket (h : Divisor cs n) : ']' ∉ cs := by
  cases h with
  | none => exact List.not_mem_nil
  | some hslash hrow =>
    have hrest := hrow.notMem_bracket
    rw [mem_trimStart_bracket] at hrest
    rw [← mem_trimStart_bracket, hslash]
    simp [hrest]

theorem Arguments.notMem_bracket (h : Arguments cs ns) : ']' ∉ cs := by
  induction h with
  | last hrow => simp [hrow.notMem_bracket]
  | more hrow hrest ih =>
    rw [mem_trimStart_bracket] at ih
    simp [hrow.notMem_bracket, ih]

/-- **Of all bodies** only those of replacements may have a closing bracket. -/
theorem Body.notMem_iff (h : Body body e) : ']' ∉ body ↔ e.IsUnbracketed := by
  cases h with
  | magicArmor hrow => exact iff_of_true (by simp [hrow.notMem_bracket]) trivial
  | magicWeapon hrow => exact iff_of_true (by simp [hrow.notMem_bracket]) trivial
  | @factor rest num behind _ _ hnum hrow hbehind hdivide =>
    refine iff_of_true ?_ trivial
    have hrest : ']' ∉ trimStart rest := by
      rw [hnum]
      simp [hrow.notMem_bracket, hbehind.notMem_bracket]
    rw [mem_trimStart_bracket] at hrest
    simp [hrest]
  | magicItem item harguments hlength hlevel =>
    have hname : ']' ∉ item.name.toList := by
      cases item <;> decide
    exact iff_of_true (by simp [hname, harguments.notMem_bracket]) trivial
  | equal rest =>
    have htrim : ']' ∈ trim rest ↔ ']' ∈ rest := mem_trim_iff (by decide)
    simp [IsUnbracketed, trimmed, htrim]

theorem notMem_iff_of_parseBody (h : parseBody body = .ok e) : ']' ∉ body ↔ e.IsUnbracketed := by
  rw [← (parseBody_eq_ok_iff.mp h).notMem_iff, mem_trim_iff (by decide), List.mem_filter]
  simp

/-- **What is read in front of a text**, with only blanks behind it, is what the whole text is read
as, if no closing bracket stands in it. -/
theorem read_whole_iff {source : String} :
    (∃ rest, read source.toList = (some e, rest) ∧ isBlankText rest = true) ↔
      parse source = .ok e ∧ e.IsUnbracketed := by
  constructor
  · rintro ⟨rest, hread, hblank⟩
    obtain ⟨body, hbrackets, hmark, hbody⟩ := read_eq_some_iff.mp hread
    have htrim : trim source.toList = '[' :: body ++ [']'] := by
      refine trim_of_trimStart ?_ (by decide) hblank
      rw [hbrackets]
      simp
    exact ⟨parse_eq_ok_iff.mpr ⟨body, htrim, hbody⟩, (notMem_iff_of_parseBody hbody).mp hmark⟩
  · rintro ⟨hparse, hunbracketed⟩
    obtain ⟨body, htrim, hbody⟩ := parse_eq_ok_iff.mp hparse
    obtain ⟨blanks, hblank, hstart⟩ := exists_trimStart_eq_trim_append source.toList
    refine ⟨blanks, read_eq_some_iff.mpr ⟨body, ?_, ?_, hbody⟩, hblank⟩
    · rw [hstart, htrim]
      simp
    · exact (notMem_iff_of_parseBody hbody).mpr hunbracketed

/-- A replacement with a bracket in its text is cut there when it is read in front of other text. -/
theorem read_cuts_replacement :
    parse "[= a]b]" = .ok (.equal "a]b") ∧
      read "[= a]b]".toList = (some (.equal "a"), "b]".toList) ∧
      ¬ ∃ rest, read "[= a]b]".toList = (some (.equal "a]b"), rest) ∧ isBlankText rest = true := by
  have hread : read "[= a]b]".toList = (some (.equal "a"), "b]".toList) := by rfl
  refine ⟨by rfl, hread, ?_⟩
  rintro ⟨rest, hother, -⟩
  rw [hread] at hother
  simp at hother

end Tabletop.Expression
