import Mathlib.Data.Set.Finite.Lemmas
import Mathlib.Data.String.Basic
import Tabletop.Proofs.Expression.Price
import Tabletop.Proofs.Record.Values

/-!
# Replaced values

An expression may be a text that replaces the value by what it reads as. What becomes of a value if
there are such texts in a list, along with costs and factors?

* Costs and factors leave the value there, and of the kind that it is (`apply_keepsKind`); so does
  what is read in its place, as only a value of that kind is (`KeepsKind`). Thus all along the list
  there is a value of the kind at the start, and a text reads as the same value anywhere
  (`applyEach_keepsKind`);
* replacements come last, in the order of their texts, so behind the last readable one there are but
  texts that read as no value of the kind (`exists_sorted_eq`). These pass the value on.

Hence the value is **what the last readable text reads as**, whatever else is in the list, and a text
that cannot be read **changes nothing** (`replacement_overrides`).
-/

namespace Tabletop

/-! ## Kinds of values -/

/-- **The kind of a value** decides what a text reads as, and no operation changes it. -/
structure KeepsKind (α : Type) [Quantity α] : Prop where
  reread_eq : ∀ v w : α, Quantity.kindName v = Quantity.kindName w →
    ∀ source, Quantity.reread v source = Quantity.reread w source
  reread : ∀ (v w : α) (source : String), Quantity.reread v source = some w →
    Quantity.kindName w = Quantity.kindName v
  scale : ∀ (v : α) (ratio : Rational),
    Quantity.kindName (Quantity.scale v ratio) = Quantity.kindName v
  money : ∀ (v w : α) (held cost : Money), Quantity.money? v = some held →
    Quantity.ofMoney? cost = some w → Quantity.kindName w = Quantity.kindName v

/-- Values of one kind keep it. -/
theorem KeepsKind.of_one_kind {α : Type} [Quantity α]
    (hkind : ∀ v w : α, Quantity.kindName v = Quantity.kindName w)
    (hreread : ∀ (v w : α) (source : String),
      Quantity.reread v source = Quantity.reread w source) : KeepsKind α where
  reread_eq v w _ := hreread v w
  reread v w _ _ := hkind w v
  scale v ratio := hkind (Quantity.scale v ratio) v
  money v w _ _ _ _ := hkind w v

theorem keepsKind_int : KeepsKind Int := .of_one_kind (fun _ _ => rfl) fun _ _ _ => rfl

theorem keepsKind_rational : KeepsKind Rational := .of_one_kind (fun _ _ => rfl) fun _ _ _ => rfl

theorem keepsKind_dice : KeepsKind Dice := .of_one_kind (fun _ _ => rfl) fun _ _ _ => rfl

theorem keepsKind_measure (k : Kind) : KeepsKind (Measure k) :=
  .of_one_kind (fun _ _ => rfl) fun _ _ _ => rfl

namespace Value

/-- What is read as a kind is of that kind. -/
theorem kind_of_parse {kind : ValueKind} {source : String} {v : Value}
    (h : parse kind source = .ok v) : v.kind = kind := by
  cases kind with
  | number =>
    obtain ⟨n, -, rfl⟩ := map_eq_ok h
    rfl
  | rational =>
    obtain ⟨r, -, rfl⟩ := map_eq_ok h
    rfl
  | dice =>
    obtain ⟨d, -, rfl⟩ := map_eq_ok h
    rfl
  | measure d =>
    obtain ⟨m, -, rfl⟩ := map_eq_ok h
    rfl

/-- Values among others keep their kind. -/
theorem keepsKind : KeepsKind Value where
  reread_eq v w h source := by
    have hkind := kind_eq_of_kindName h
    simp only [Quantity.reread, hkind]
  reread v w source h := by
    simp only [Quantity.reread] at h
    cases hparse : parse v.kind source with
    | error failure =>
      rw [hparse] at h
      cases h
    | ok u =>
      rw [hparse] at h
      cases h
      exact congrArg ValueKind.name (kind_of_parse hparse)
  scale v ratio := by
    cases v <;> rfl
  money v w held cost hheld hcost := by
    cases hcost
    simp only [Quantity.money?, money?] at hheld
    split at hheld
    · rfl
    · cases hheld

end Value

namespace Expression

variable {α : Type} [Quantity α] {es : List Expression} {e : Expression} {u v w : α}

/-! ## Values in a list -/

/-- **One expression** leaves a value of the same kind. -/
theorem apply_keepsKind (hα : KeepsKind α) (he : e.IsChecked) (v : α) (held : Enhancements) :
    ∃ w, (e.apply (some v) held).1 = some w ∧ Quantity.kindName w = Quantity.kindName v := by
  have hcost : ∀ cost, ∃ w, addCost (some v) cost = some w ∧
      Quantity.kindName w = Quantity.kindName v := by
    intro cost
    simp only [addCost]
    cases hmoney : Quantity.money? v with
    | none => exact ⟨v, rfl, rfl⟩
    | some money =>
      cases hsum : (Quantity.ofMoney? (money.add cost) : Option α) with
      | none => exact ⟨v, by simp [hsum], rfl⟩
      | some w => exact ⟨w, by simp [hsum], hα.money v w money _ hmoney hsum⟩
  cases e with
  | factor multiply divide =>
    rw [apply_factor multiply he]
    exact ⟨_, rfl, hα.scale v _⟩
  | equal source =>
    cases hread : Quantity.reread v source with
    | none => exact ⟨v, by simp [apply, hread], rfl⟩
    | some w => exact ⟨w, by simp [apply, hread], hα.reread v w source hread⟩
  | _ => exact hcost _

/-- **Expressions one after the other** leave a value of the same kind. -/
theorem applyEach_keepsKind (hα : KeepsKind α) (hchecked : ∀ e ∈ es, e.IsChecked) :
    ∀ (v : α) (held : Enhancements), ∃ w, (applyEach es (some v) held).1 = some w ∧
      Quantity.kindName w = Quantity.kindName v := by
  induction es with
  | nil => exact fun v _ => ⟨v, rfl, rfl⟩
  | cons e es ih =>
    intro v held
    obtain ⟨he, hes⟩ := List.forall_mem_cons.mp hchecked
    obtain ⟨u, hu, hukind⟩ := apply_keepsKind hα he v held
    obtain ⟨w, hw, hwkind⟩ := ih hes u (e.apply (some v) held).2
    rw [applyEach_cons, hu]
    exact ⟨w, hw, hwkind.trans hukind⟩

theorem applyEach_append (es fs : List Expression) (value : Option α) (held : Enhancements) :
    applyEach (es ++ fs) value held =
      applyEach fs (applyEach es value held).1 (applyEach es value held).2 := by
  simp [applyEach, List.foldl_append]

/-- A text that reads as nothing, or as the value itself, changes nothing. -/
theorem apply_equal_of_or {source : String}
    (h : Quantity.reread v source = none ∨ Quantity.reread v source = some v)
    (held : Enhancements) : (equal source).apply (some v) held = (some v, held) := by
  rcases h with h | h <;> simp [apply, h]

/-- Expressions that change nothing one by one do so together. -/
theorem applyEach_eq_self {value : Option α}
    (h : ∀ e ∈ es, ∀ held, e.apply value held = (value, held)) (held : Enhancements) :
    applyEach es value held = (value, held) := by
  induction es with
  | nil => rfl
  | cons e es ih =>
    obtain ⟨he, hes⟩ := List.forall_mem_cons.mp h
    rw [applyEach_cons, he, ih hes]

/-! ## The order of replacements -/

/-- Replacements come last. -/
theorem exists_equal_of_atMost {source : String} (h : atMost (.equal source) e) :
    ∃ other, e = .equal other := by
  have hpriority := priority_le_of_atMost h
  cases e with
  | equal other => exact ⟨other, rfl⟩
  | _ => simp [priority] at hpriority

/-- Replacements apply in the order of their texts. -/
theorem text_le_of_atMost {a b : String} (h : atMost (.equal a) (.equal b)) :
    (equal a).text ≤ (equal b).text := by
  have hcompare : (equal a).compare (.equal b) ≠ .gt := of_decide_eq_true h
  have htexts : (equal a).compare (.equal b) = Ord.compare (equal a).text (equal b).text := rfl
  rw [htexts] at hcompare
  exact compare_le_iff_le.mp hcompare

/-- **The last readable replacement**: its text reads as a value of the kind of `v`, and it comes
last in the order of texts among all replacements of which that holds. -/
structure IsLastReadable (es : List Expression) (v : α) (source : String) (w : α) : Prop where
  mem : .equal source ∈ es
  reads : Quantity.reread v source = some w
  last : ∀ other, .equal other ∈ es → (Quantity.reread v other).isSome →
    (equal other).text ≤ (equal source).text

/-- **Behind the last readable replacement** there are but replacements whose texts cannot be read,
or say the same. -/
theorem IsLastReadable.exists_sorted_eq {source : String} (h : IsLastReadable es v source w) :
    ∃ before behind, sorted es = before ++ .equal source :: behind ∧
      ∀ e ∈ behind, ∃ other, e = .equal other ∧
        (Quantity.reread v other = none ∨ Quantity.reread v other = some w) := by
  have hmem : ∀ {e : Expression}, e ∈ sorted es ↔ e ∈ es := (perm_sorted es).mem_iff
  obtain ⟨before, behind, heq⟩ := List.append_of_mem (hmem.mpr h.mem)
  refine ⟨before, behind, heq, fun e he => ?_⟩
  have hsorted := pairwise_sorted es
  rw [heq, List.pairwise_append, List.pairwise_cons] at hsorted
  have hafter : atMost (.equal source) e := hsorted.2.1.1 e he
  obtain ⟨other, rfl⟩ := exists_equal_of_atMost hafter
  refine ⟨other, rfl, ?_⟩
  cases hread : Quantity.reread v other with
  | none => exact .inl rfl
  | some r =>
    -- a readable one behind the last one can only be another copy of it
    have hother : .equal other ∈ es := by
      rw [← hmem, heq]
      exact List.mem_append_right _ (List.mem_cons_of_mem _ he)
    have hle := h.last other hother (by rw [hread]; rfl)
    have htext := le_antisymm (text_le_of_atMost hafter) hle
    obtain rfl : source = other := Expression.equal.inj (text_injective htext)
    rw [← hread]
    exact .inr h.reads

/-- **The value is what the last readable text reads as.** -/
theorem IsLastReadable.applyAll_eq {source : String} (h : IsLastReadable es v source w)
    (hα : KeepsKind α) (hchecked : ∀ e ∈ es, e.IsChecked)
    (hu : Quantity.kindName u = Quantity.kindName v) : applyAll es (some u) = some w := by
  obtain ⟨before, behind, heq, hbehind⟩ := h.exists_sorted_eq
  have hbefore : ∀ e ∈ before, e.IsChecked := by
    intro e he
    refine hchecked e ((perm_sorted es).mem_iff.mp ?_)
    rw [heq]
    exact List.mem_append_left _ he
  obtain ⟨r, hr, hrkind⟩ := applyEach_keepsKind hα hbefore u .none
  have hread : Quantity.reread r source = some w := by
    rw [hα.reread_eq r v (hrkind.trans hu), h.reads]
  have hwkind := hα.reread v w source h.reads
  rw [applyAll, heq, applyEach_append, hr, applyEach_cons]
  simp only [apply, Option.map_some, hread, Option.getD_some]
  rw [applyEach_eq_self]
  intro e he held
  obtain ⟨other, rfl, hother⟩ := hbehind e he
  refine apply_equal_of_or ?_ held
  rwa [hα.reread_eq w v hwkind]

/-- Of readable replacements there is a last one. -/
theorem exists_isLastReadable
    (h : ∃ source, .equal source ∈ es ∧ (Quantity.reread v source).isSome) :
    ∃ source w, IsLastReadable es v source w := by
  let readable : Set Expression :=
    {e | e ∈ es ∧ ∃ source, e = .equal source ∧ (Quantity.reread v source).isSome}
  have hfinite : readable.Finite := es.finite_toSet.subset fun _ he => he.1
  obtain ⟨first, hfirst, hread⟩ := h
  obtain ⟨_, ⟨hmem, source, rfl, hsome⟩, hmax⟩ :=
    Set.exists_max_image readable text hfinite ⟨.equal first, hfirst, first, rfl, hread⟩
  obtain ⟨w, hw⟩ := Option.isSome_iff_exists.mp hsome
  exact ⟨source, w, hmem, hw, fun other hother hr => hmax _ ⟨hother, other, rfl, hr⟩⟩

/-- **A text that cannot be read changes nothing**, wherever it stands. -/
theorem applyAll_of_unread (hα : KeepsKind α) (hchecked : ∀ e ∈ es, e.IsChecked)
    {source : String} (hsource : Quantity.reread v source = none) {fs : List Expression}
    (hperm : fs.Perm (.equal source :: es)) : applyAll fs (some v) = applyAll es (some v) := by
  have hmem : .equal source ∈ sorted fs :=
    ((perm_sorted fs).trans hperm).mem_iff.mpr List.mem_cons_self
  obtain ⟨before, behind, heq⟩ := List.append_of_mem hmem
  -- without the text, the rest is in order as it stands
  have hrest : es.Perm (before ++ behind) := by
    refine List.Perm.cons_inv (a := Expression.equal source) ?_
    exact (hperm.symm.trans ((perm_sorted fs).symm.trans (.of_eq heq))).trans List.perm_middle
  have hsorted : sorted es = before ++ behind := by
    refine sorted_eq_of_pairwise hrest ?_
    have hpairwise := pairwise_sorted fs
    rw [heq] at hpairwise
    exact hpairwise.sublist ((List.sublist_cons_self _ _).append_left before)
  have hbefore : ∀ e ∈ before, e.IsChecked := fun e he =>
    hchecked e (hrest.mem_iff.mpr (List.mem_append_left _ he))
  obtain ⟨r, hr, hrkind⟩ := applyEach_keepsKind hα hbefore v .none
  have hread : Quantity.reread r source = none := by
    rw [hα.reread_eq r v hrkind, hsource]
  rw [applyAll, applyAll, heq, hsorted, applyEach_append, applyEach_append, hr, applyEach_cons,
    apply_equal_of_or (.inl hread)]

/-! ## The value of a list -/

/-- **A list overrides values** by its replacements: of those that can be read there is a last one,
it makes the same of all values of the kind, and one that cannot be read makes no difference. -/
structure Overrides (α : Type) [Quantity α] (es : List Expression) : Prop where
  exists_last : ∀ v : α, (∃ source, .equal source ∈ es ∧ (Quantity.reread v source).isSome) →
    ∃ source w, IsLastReadable es v source w
  replaced : ∀ (u v w : α) (source : String), Quantity.kindName u = Quantity.kindName v →
    IsLastReadable es v source w → applyAll es (some u) = some w
  unread : ∀ (v : α) (source : String) (fs : List Expression), Quantity.reread v source = none →
    fs.Perm (.equal source :: es) → applyAll fs (some v) = applyAll es (some v)

/-- **A list overrides values** of every type whose operations keep the kind. -/
theorem overrides_of_keepsKind (hα : KeepsKind α) (hchecked : ∀ e ∈ es, e.IsChecked) :
    Overrides α es where
  exists_last _ := exists_isLastReadable
  replaced _ _ _ _ hu h := h.applyAll_eq hα hchecked hu
  unread _ _ _ hsource hperm := applyAll_of_unread hα hchecked hsource hperm

/-- Two numbers and a price to replace a value by, and what else changes a price. -/
def ransom : List Expression :=
  [.equal "7", .factor 3 2, .equal "5 gp", .magicArmor 1, .equal "30"]

theorem replacements_ransom {source : String} (h : .equal source ∈ ransom) :
    source = "7" ∨ source = "5 gp" ∨ source = "30" := by
  simpa [ransom] using h

end Expression

end Tabletop
