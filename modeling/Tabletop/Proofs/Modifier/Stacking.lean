import Mathlib.Algebra.BigOperators.Group.List.Basic
import Mathlib.Data.List.Nodup
import Tabletop.Modifier.Basic

/-!
# Stacking

When adding two chains follows the stacking rule: bonuses of one type and condition become one
bonus, which is their sum if the type stacks and the larger of both otherwise.

* **key** is what two bonuses have in common when they stack; a chain **IsDistinct** if no key
  occurs twice in it, and **at?** looks up the value under a key;
* **Combines** says that a sum of two chains follows the rule;
* **Follows** says that the bonuses that the second chain shares with the first stand in front of
  its others and in the order of the first.

Two distinct chains are added by the rule **exactly if the second follows the first**
(`add_combines_iff`): a bonus of the second chain is looked at only after those in front of it were
joined, so a bonus that the first chain lacks hides all that come after it. Where both orders of
addition follow the rule, they agree in all totals.

Whether two bonuses count together is also asked without adding them, and there it is their signs and
their condition that may decide, and not the type only:

* **CountTogether** says that either of two chains counts next to the other, and **KeepsBoth** that
  their sum has the value of both if they do;
* **Swallows** says that of two single bonuses one is lost when they are joined, though they count
  together. Single bonuses are both kept **exactly if none swallows the other**
  (`add_keepsBoth_iff`).
-/

namespace Tabletop

namespace Bonus

/-- What decides which bonuses are combined. -/
abbrev Key := BonusType × Option String

/-- The type and the condition of a bonus. -/
def key (b : Bonus) : Key := (b.kind, b.condition)

/-- The keys of some bonuses. -/
abbrev keys (bs : List Bonus) : List Key := bs.map key

/-- The value of the first bonus with a key. -/
def lookup (k : Key) (bs : List Bonus) : Option Int := (bs.find? fun b => b.key = k).map (·.value)

/-- The stacking rule for the values under a key, where either side may lack one. -/
def combined (k : Key) : Option Int → Option Int → Option Int
  | some v, some w => some (if k.1.isStacking then v + w else max v w)
  | none, w => w
  | v, none => v

/-- The bonuses of the second row that the first one shares stand in front, in the order of the
first. -/
def Follows (bs as : List Bonus) : Prop :=
  ∃ shared rest, bs = shared ++ rest ∧ (keys shared).Sublist (keys as) ∧
    ∀ b ∈ rest, b.key ∉ keys as

/-- Links meet if they have one key. -/
theorem meets_iff {a b : Bonus} : a.meets b = true ↔ a.key = b.key := by
  simp [meets, key]

@[simp] theorem key_join (a b : Bonus) : (a.join b).key = a.key := rfl

theorem combined_comm (k : Key) (v w : Option Int) : combined k v w = combined k w v := by
  cases v <;> cases w <;> simp only [combined, Int.add_comm, Int.max_comm]

theorem lookup_cons_self (b : Bonus) (bs : List Bonus) : lookup b.key (b :: bs) = some b.value := by
  simp [lookup]

theorem lookup_cons_ne {k : Key} {b : Bonus} (h : b.key ≠ k) (bs : List Bonus) :
    lookup k (b :: bs) = lookup k bs := by
  simp [lookup, h]

theorem lookup_eq_none {k : Key} {bs : List Bonus} (h : k ∉ keys bs) : lookup k bs = none := by
  rw [lookup, List.find?_eq_none.mpr, Option.map_none]
  intro b hb
  simpa using fun hk : b.key = k => h (hk ▸ List.mem_map_of_mem hb)

/-- In a row without repeated keys a bonus is found under its key. -/
theorem mem_iff_lookup {bs : List Bonus} (h : (keys bs).Nodup) (b : Bonus) :
    b ∈ bs ↔ lookup b.key bs = some b.value := by
  induction bs with
  | nil => simp [lookup]
  | cons c bs ih =>
    obtain ⟨hc, hbs⟩ := List.nodup_cons.mp h
    by_cases hk : c.key = b.key
    · have hb : b ∉ bs := fun hb => hc (hk ▸ List.mem_map_of_mem hb)
      rw [← hk, lookup_cons_self, List.mem_cons, or_iff_left hb, Option.some.injEq]
      constructor
      · rintro rfl
        rfl
      · intro hvalue
        obtain ⟨v, kind, condition⟩ := b
        obtain ⟨w, kind', condition'⟩ := c
        simp_all [key]
    · have hb : b ≠ c := fun hb => hk (hb ▸ rfl)
      rw [lookup_cons_ne hk, List.mem_cons, or_iff_right hb, ih hbs]

/-! ## What merging does -/

/-- Merging keeps all keys, and brings no new one. -/
theorem mem_keys_merge {k : Key} {as bs : List Bonus} :
    k ∈ keys (merge as bs) ↔ k ∈ keys as ∨ k ∈ keys bs := by
  fun_induction merge as bs with
  | case1 bs => simp
  | case2 as => simp
  | case3 a as b bs hmeets ih =>
    have hk := meets_iff.mp hmeets
    simp only [keys, List.map_cons, List.mem_cons, key_join] at ih ⊢
    rw [ih, hk]
    tauto
  | case4 a as b bs hmeets ih =>
    simp only [keys, List.map_cons, List.mem_cons] at ih ⊢
    rw [ih]
    tauto

theorem follows_nil (bs : List Bonus) : Follows bs [] :=
  ⟨[], bs, rfl, List.Sublist.refl _, fun _ _ => List.not_mem_nil⟩

theorem nil_follows (as : List Bonus) : Follows [] as :=
  ⟨[], [], rfl, List.nil_sublist _, fun _ hb => absurd hb List.not_mem_nil⟩

variable {a b : Bonus} {as bs : List Bonus}

/-- Where the first bonuses meet, the rest decides. -/
theorem cons_follows_cons (hk : a.key = b.key) (hbs : b.key ∉ keys bs) :
    Follows (b :: bs) (a :: as) ↔ Follows bs as := by
  constructor
  · rintro ⟨shared, rest, heq, hsub, hrest⟩
    cases shared with
    | nil =>
      -- the first bonus would be among the rest, which the first row does not share
      subst heq
      exact absurd (hk ▸ List.mem_cons_self) (hrest b List.mem_cons_self)
    | cons c shared =>
      cases heq
      refine ⟨shared, rest, rfl, ?_, fun c hc hmem => hrest c hc (List.mem_cons_of_mem _ hmem)⟩
      rw [keys, keys, List.map_cons, List.map_cons, hk] at hsub
      exact List.cons_sublist_cons.mp hsub
  · rintro ⟨shared, rest, rfl, hsub, hrest⟩
    refine ⟨b :: shared, rest, rfl, ?_, fun c hc hmem => ?_⟩
    · rw [keys, keys, List.map_cons, List.map_cons, hk]
      exact hsub.cons_cons _
    · rcases List.mem_cons.mp hmem with hca | hca
      · refine hbs (List.mem_map.mpr ⟨c, List.mem_append_right shared hc, ?_⟩)
        rw [hca, hk]
      · exact hrest c hc hca

/-- Where they do not, the first row's bonus must be one of its own. -/
theorem follows_cons_of_ne (hk : a.key ≠ b.key) (has : a.key ∉ keys as) :
    Follows (b :: bs) (a :: as) ↔ a.key ∉ keys (b :: bs) ∧ Follows (b :: bs) as := by
  constructor
  · rintro ⟨shared, rest, heq, hsub, hrest⟩
    have hrest' : a.key ∉ keys rest := fun h => by
      obtain ⟨c, hc, hck⟩ := List.mem_map.mp h
      exact hrest c hc (hck ▸ List.mem_cons_self)
    have hshared : (keys shared).Sublist (keys as) := by
      cases shared with
      | nil => exact List.nil_sublist _
      | cons c shared =>
        cases heq
        rcases List.sublist_cons_iff.mp hsub with hsub | ⟨_, hhead, -⟩
        · exact hsub
        · exact absurd (List.cons.inj hhead).1 (Ne.symm hk)
    refine ⟨fun h => ?_, shared, rest, heq, hshared,
      fun c hc hmem => hrest c hc (List.mem_cons_of_mem _ hmem)⟩
    rw [heq, keys, List.map_append, List.mem_append] at h
    exact has (hshared.subset (h.resolve_right hrest'))
  · rintro ⟨ha, shared, rest, heq, hsub, hrest⟩
    refine ⟨shared, rest, heq, hsub.cons _, fun c hc hmem => ?_⟩
    rcases List.mem_cons.mp hmem with hca | hca
    · exact ha (hca ▸ List.mem_map_of_mem (heq ▸ List.mem_append_right shared hc))
    · exact hrest c hc hca

/-- **No key is repeated** by a merge exactly if the second row follows the first. -/
theorem nodup_keys_merge_iff (has : (keys as).Nodup) (hbs : (keys bs).Nodup) :
    (keys (merge as bs)).Nodup ↔ Follows bs as := by
  fun_induction merge as bs with
  | case1 bs => exact iff_of_true hbs (follows_nil bs)
  | case2 as => exact iff_of_true has (nil_follows as)
  | case3 a as b bs hmeets ih =>
    have hk := meets_iff.mp hmeets
    obtain ⟨ha, has⟩ := List.nodup_cons.mp has
    obtain ⟨hb, hbs⟩ := List.nodup_cons.mp hbs
    have hnew : a.key ∉ keys (merge as bs) := fun h =>
      (mem_keys_merge.mp h).elim ha fun h => hb (hk ▸ h)
    rw [cons_follows_cons hk hb, ← ih has hbs, keys, List.map_cons, key_join, List.nodup_cons,
      and_iff_right hnew]
  | case4 a as b bs hmeets ih =>
    have hk : a.key ≠ b.key := fun h => hmeets (meets_iff.mpr h)
    obtain ⟨ha, has⟩ := List.nodup_cons.mp has
    rw [follows_cons_of_ne hk ha, ← ih has hbs, keys, List.map_cons, List.nodup_cons,
      mem_keys_merge, not_or, and_iff_right ha]

/-- **Every key holds what the rule says**, if the second row follows the first. -/
theorem lookup_merge (has : (keys as).Nodup) (hbs : (keys bs).Nodup) (h : Follows bs as) (k : Key) :
    lookup k (merge as bs) = combined k (lookup k as) (lookup k bs) := by
  fun_induction merge as bs with
  | case1 bs => rfl
  | case2 as => cases hv : lookup k as <;> rfl
  | case3 a as b bs hmeets ih =>
    have hk := meets_iff.mp hmeets
    obtain ⟨-, has⟩ := List.nodup_cons.mp has
    obtain ⟨hb, hbs⟩ := List.nodup_cons.mp hbs
    by_cases hkey : a.key = k
    · subst hkey
      rw [← key_join a b, lookup_cons_self, key_join, lookup_cons_self, hk, lookup_cons_self,
        combined, ← hk]
      rfl
    · rw [lookup_cons_ne ((key_join a b).trans_ne hkey), lookup_cons_ne hkey,
        lookup_cons_ne (hk ▸ hkey)]
      exact ih has hbs ((cons_follows_cons hk hb).mp h)
  | case4 a as b bs hmeets ih =>
    -- the first row goes on alone: nothing behind has its key
    have hk : a.key ≠ b.key := fun h => hmeets (meets_iff.mpr h)
    obtain ⟨ha, has⟩ := List.nodup_cons.mp has
    obtain ⟨hnew, h⟩ := (follows_cons_of_ne hk ha).mp h
    by_cases hkey : a.key = k
    · subst hkey
      rw [lookup_cons_self, lookup_cons_self, lookup_eq_none hnew]
      rfl
    · rw [lookup_cons_ne hkey, lookup_cons_ne hkey]
      exact ih has hbs h

/-- What rows without repeated keys count depends only on the values under the keys. -/
theorem sum_eq_of_lookup (f : Bonus → Int) (has : (keys as).Nodup) (hbs : (keys bs).Nodup)
    (h : ∀ k, lookup k as = lookup k bs) : sum f as = sum f bs := by
  -- a bonus is its key and its value, so both rows have the same bonuses
  have hperm : as.Perm bs := by
    refine (List.perm_ext_iff_of_nodup has.of_map hbs.of_map).mpr fun c => ?_
    rw [mem_iff_lookup has, mem_iff_lookup hbs, h]
  have hsum : ∀ cs, sum f cs = (cs.map f).sum := fun cs => by
    rw [sum, List.sum_eq_foldr, List.foldr_map]
  rw [hsum, hsum, (hperm.map f).sum_eq]

end Bonus

namespace Modifier

/-- No two bonuses of the chain have both the same type and the same condition. -/
def IsDistinct (m : Modifier) : Prop := (Bonus.keys m.links).Nodup

instance (m : Modifier) : Decidable m.IsDistinct := inferInstanceAs (Decidable (List.Nodup _))

/-- The value of the first bonus with a type and condition. -/
def at? (m : Modifier) (k : Bonus.Key) : Option Int := Bonus.lookup k m.links

/-- The sum of two chains follows the stacking rule: it is distinct, and under every type and
condition it holds what the rule makes of the values there. -/
structure Combines (m n : Modifier) : Prop where
  distinct : (m.add n).IsDistinct
  values : ∀ k, (m.add n).at? k = Bonus.combined k (m.at? k) (n.at? k)

/-- Two chains count the same, with or without what is conditional. -/
def SameTotals (m n : Modifier) : Prop :=
  m.value = n.value ∧ m.minValue = n.minValue ∧ m.maxValue = n.maxValue

variable {m n : Modifier}

/-- **A sum follows the stacking rule** exactly if the second chain follows the first. -/
theorem combines_iff_follows (hm : m.IsDistinct) (hn : n.IsDistinct) :
    Combines m n ↔ Bonus.Follows n.links m.links := by
  constructor
  · rintro ⟨hdistinct, -⟩
    rw [IsDistinct, links_add] at hdistinct
    exact (Bonus.nodup_keys_merge_iff hm hn).mp hdistinct
  · intro h
    constructor
    · rw [IsDistinct, links_add]
      exact (Bonus.nodup_keys_merge_iff hm hn).mpr h
    · intro k
      rw [at?, links_add]
      exact Bonus.lookup_merge hm hn h k

/-- Sums in either order count the same where both follow the rule. -/
theorem Combines.sameTotals (h : Combines m n) (h' : Combines n m) :
    SameTotals (m.add n) (n.add m) := by
  have hsum : ∀ f, Bonus.sum f (m.add n).links = Bonus.sum f (n.add m).links := fun f =>
    Bonus.sum_eq_of_lookup f h.distinct h'.distinct fun k =>
      (h.values k).trans ((Bonus.combined_comm k _ _).trans (h'.values k).symm)
  exact ⟨hsum _, hsum _, hsum _⟩

/-- **Addition follows the stacking rule** exactly if the second chain follows the first, and in
both orders, with the same totals, exactly if either chain follows the other. -/
theorem add_combines_iff (hm : m.IsDistinct) (hn : n.IsDistinct) :
    (Combines m n ↔ Bonus.Follows n.links m.links) ∧
      (Combines m n ∧ Combines n m ∧ SameTotals (m.add n) (n.add m) ↔
        Bonus.Follows n.links m.links ∧ Bonus.Follows m.links n.links) := by
  refine ⟨combines_iff_follows hm hn, ?_⟩
  rw [← combines_iff_follows hm hn, ← combines_iff_follows hn hm]
  constructor
  · rintro ⟨h, h', -⟩
    exact ⟨h, h'⟩
  · rintro ⟨h, h'⟩
    exact ⟨h, h', h.sameTotals h'⟩

/-- Armor and shield bonuses in the same order: the larger one counts of either. -/
theorem add_combines_armor_shield :
    Combines ⟨⟨2, .armor, none⟩, [⟨1, .shield, none⟩]⟩ ⟨⟨4, .armor, none⟩, [⟨2, .shield, none⟩]⟩ :=
  (add_combines_iff (by decide) (by decide)).1.mpr
    ⟨[⟨4, .armor, none⟩, ⟨2, .shield, none⟩], [], rfl, List.Sublist.refl _,
      fun _ hb => absurd hb List.not_mem_nil⟩

/-- **Addition does not follow the rule** where two bonuses are in the opposite order: the dodge
bonus is repeated, or both armor bonuses count, depending on which chain comes first. -/
theorem add_opposite_order :
    let m : Modifier := ⟨⟨1, .dodge, none⟩, [⟨2, .armor, none⟩]⟩
    let n : Modifier := ⟨⟨3, .armor, none⟩, [⟨1, .dodge, none⟩]⟩
    m.IsDistinct ∧ n.IsDistinct ∧ ¬ (m.add n).IsDistinct ∧ ¬ (n.add m).IsDistinct ∧
      (m.add n).value = 5 ∧ (n.add m).value = 7 := by
  decide

/-! ## Bonuses that count together -/

/-- A chain of one bonus. -/
def ofBonus (b : Bonus) : Modifier := ⟨b, []⟩

/-- Either of two chains still counts next to the other. -/
def CountTogether (m n : Modifier) : Prop :=
  m.stacksOrExceeds n = true ∧ n.stacksOrExceeds m = true

instance (m n : Modifier) : Decidable (CountTogether m n) := inferInstanceAs (Decidable (_ ∧ _))

/-- The sum of two chains that count together has the value of both. -/
def KeepsBoth (m n : Modifier) : Prop := CountTogether m n → (m.add n).value = m.value + n.value

instance (m n : Modifier) : Decidable (KeepsBoth m n) := inferInstanceAs (Decidable (_ → _))

/-- Two bonuses of one type and condition are joined to the larger one though both count: one of
them is a penalty, or both are bonuses under their condition. -/
def Swallows (a b : Bonus) : Prop :=
  a.key = b.key ∧ a.kind.isStacking = false ∧
    (min a.value b.value < 0 ∨ a.condition.isSome = true ∧ 0 < min a.value b.value)

variable {a b : Bonus}

/-- Neither of two bonuses can exceed the other, so one of them has to stack. -/
theorem countTogether_ofBonus_iff :
    CountTogether (ofBonus a) (ofBonus b) ↔ a.isStacking = true ∨ b.isStacking = true := by
  simp only [CountTogether, stacksOrExceeds, isStacking, ofBonus, Bool.or_eq_true]
  constructor
  · rintro ⟨h, h'⟩
    by_contra! hneither
    have hab : b.value < a.value :=
      of_decide_eq_true (h.resolve_left fun hst => hst.elim hneither.1 hneither.2)
    have hba : a.value < b.value :=
      of_decide_eq_true (h'.resolve_left fun hst => hst.elim hneither.2 hneither.1)
    omega
  · intro h
    exact ⟨.inl h, .inl h.symm⟩

theorem value_ofBonus (b : Bonus) : (ofBonus b).value = b.value := Int.add_zero b.value

/-- Two bonuses that do not meet are chained. -/
theorem value_add_of_key_ne (h : a.key ≠ b.key) :
    ((ofBonus a).add (ofBonus b)).value = a.value + b.value := by
  have hmeets : ¬ a.meets b = true := fun hmeets => h (Bonus.meets_iff.mp hmeets)
  rw [value, links_add]
  simp only [ofBonus, links, Bonus.merge, if_neg hmeets, Bonus.sum_cons]
  exact congrArg (a.value + ·) (Int.add_zero b.value)

/-- Two bonuses that meet are joined as their type tells. -/
theorem value_add_of_key_eq (h : a.key = b.key) :
    ((ofBonus a).add (ofBonus b)).value =
      if a.kind.isStacking then a.value + b.value else max a.value b.value := by
  rw [value, links_add]
  simp only [ofBonus, links, Bonus.merge, if_pos (Bonus.meets_iff.mpr h), Bonus.sum_cons]
  exact Int.add_zero _

/-- **Two bonuses that count together are both kept by their sum** exactly if none is swallowed. Those
that can be lost have the same type and condition, and the type does not stack: then a penalty is lost
in a bonus, or the smaller of two bonuses under their condition in the larger one. -/
theorem add_keepsBoth_iff (a b : Bonus) :
    KeepsBoth (ofBonus a) (ofBonus b) ↔ ¬ Swallows a b := by
  rw [KeepsBoth, countTogether_ofBonus_iff, value_ofBonus, value_ofBonus]
  by_cases hkey : a.key = b.key
  · obtain ⟨hkind, hcondition⟩ := Prod.mk.inj hkey
    rw [value_add_of_key_eq hkey]
    cases hstacking : a.kind.isStacking with
    | true =>
      -- the type stacks, so both are added
      refine iff_of_true (fun _ => rfl) ?_
      rintro ⟨-, hnot, -⟩
      rw [hstacking] at hnot
      cases hnot
    | false =>
      have hstacking' : b.kind.isStacking = false := hkind ▸ hstacking
      simp only [Swallows, Bonus.isStacking, hstacking, hstacking', ← hcondition, hkey,
        Bool.or_false, Bool.or_eq_true, decide_eq_true_eq, true_and, Bool.false_eq_true, if_false]
      -- the larger one is the sum exactly if the smaller one is zero
      cases a.condition.isSome with
      | true =>
        simp only [or_true, true_imp_iff, true_and]
        omega
      | false =>
        simp only [Bool.false_eq_true, or_false, false_and]
        omega
  · refine iff_of_true (fun _ => value_add_of_key_ne hkey) ?_
    rintro ⟨heq, -⟩
    exact hkey heq

/-- **Penalties and conditional bonuses are swallowed**: the smaller of two penalties, the penalty
next to a bonus, and the smaller of two bonuses under one condition. -/
theorem add_swallows_penalty :
    let sick : Bonus := ⟨-1, .armor, none⟩
    let hurt : Bonus := ⟨-2, .armor, none⟩
    let quick : Bonus := ⟨2, .armor, some "moving"⟩
    let light : Bonus := ⟨3, .armor, some "moving"⟩
    CountTogether (ofBonus sick) (ofBonus hurt) ∧
      ((ofBonus sick).add (ofBonus hurt)).value = -1 ∧
      ¬ KeepsBoth (ofBonus sick) (ofBonus hurt) ∧
      CountTogether (ofBonus quick) (ofBonus light) ∧
      ((ofBonus quick).add (ofBonus light)).value = 3 ∧
      ¬ KeepsBoth (ofBonus quick) (ofBonus light) := by
  decide

end Modifier

end Tabletop
