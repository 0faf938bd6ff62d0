import Mathlib.Algebra.BigOperators.Group.Finset.Basic
import Mathlib.Algebra.Ring.Int.Defs
import Mathlib.Data.String.Basic
import Tabletop.Modifier.Number
import Tabletop.Proofs.Modifier.Stacking

/-!
# Accumulated bonuses

Single bonuses are given to a number one after the other, each under a name. What do they make
together, in all and under each name?

* **Bonus.stacked** is what the bonuses of one type and condition count together, said without any
  chain: their sum if the type stacks, the largest of them otherwise;
* **Accumulates** is the invariant of a chain to which bonuses are added one by one: it has one
  bonus for every key given, and that counts what is stacked there. A single bonus always follows
  the chain (`Bonus.follows_singleton`), so one more of them keeps the invariant
  (`Accumulates.add`);
* the names are kept in order, and giving a modifier changes what is held under its own name only
  (`NamedModifiers.lookup_give_self`, `NamedModifiers.lookup_give_ne`);
* hence **the range is a sum over the keys given** (`ModifiedNumber.IsGiven.range`), which knows
  neither the order of the bonuses nor their names.

A plain number given as a bonus always counts in full (`ModifiedNumber.range_withMerged_general`).
-/

namespace Tabletop

namespace Bonus

/-! ## What is stacked under a key -/

/-- The values of the bonuses with a key. -/
def valuesUnder (k : Key) (bs : List Bonus) : List Int :=
  (bs.filter fun b => b.key = k).map (·.value)

/-- What the bonuses with a key count together: all of them if the type stacks, and otherwise the
largest one only. -/
def stacked (k : Key) (bs : List Bonus) : Int :=
  if k.1.isStacking then (valuesUnder k bs).sum else (valuesUnder k bs).max?.getD 0

/-- The least of what a key counts; its condition may leave that out. -/
def leastUnder (k : Key) (counted : Int) : Int := if k.2.isSome then min counted 0 else counted

/-- The most of what a key counts; its condition may leave that out. -/
def mostUnder (k : Key) (counted : Int) : Int := if k.2.isSome then max counted 0 else counted

variable {k : Key} {bs cs : List Bonus}

theorem valuesUnder_eq_nil (h : k ∉ keys bs) : valuesUnder k bs = [] := by
  refine List.map_eq_nil_iff.mpr (List.filter_eq_nil_iff.mpr fun b hb => ?_)
  simpa using fun hk : b.key = k => h (hk ▸ List.mem_map_of_mem hb)

theorem valuesUnder_ne_nil (h : k ∈ keys bs) : valuesUnder k bs ≠ [] := by
  obtain ⟨b, hb, hk⟩ := List.mem_map.mp h
  refine List.ne_nil_of_mem (a := b.value) (List.mem_map_of_mem ?_)
  exact List.mem_filter.mpr ⟨hb, decide_eq_true hk⟩

/-- A bonus more gives its value under its key. -/
theorem valuesUnder_concat_self (bs : List Bonus) (b : Bonus) :
    valuesUnder b.key (bs ++ [b]) = valuesUnder b.key bs ++ [b.value] := by
  simp [valuesUnder]

theorem valuesUnder_concat_ne {b : Bonus} (h : b.key ≠ k) (bs : List Bonus) :
    valuesUnder k (bs ++ [b]) = valuesUnder k bs := by
  simp [valuesUnder, h]

/-- The largest of some values and one more. -/
theorem max?_concat {vs : List Int} (h : vs ≠ []) (w : Int) :
    (vs ++ [w]).max?.getD 0 = max (vs.max?.getD 0) w := by
  cases vs with
  | nil => exact absurd rfl h
  | cons v vs =>
    rw [List.cons_append, List.max?_cons', List.max?_cons', List.foldl_append]
    rfl

/-- A bonus more under a key that occurs adds its value, or raises the highest one. -/
theorem stacked_concat_of_mem {b : Bonus} (h : b.key ∈ keys bs) :
    stacked b.key (bs ++ [b]) =
      if b.kind.isStacking then stacked b.key bs + b.value else max (stacked b.key bs) b.value := by
  have hkind : b.key.1 = b.kind := rfl
  unfold stacked
  rw [valuesUnder_concat_self, hkind]
  split
  · rw [List.sum_append, List.sum_singleton]
  · exact max?_concat (valuesUnder_ne_nil h) b.value

/-- A bonus under a new key counts as it is. -/
theorem stacked_concat_of_not_mem {b : Bonus} (h : b.key ∉ keys bs) :
    stacked b.key (bs ++ [b]) = b.value := by
  rw [stacked, valuesUnder_concat_self, valuesUnder_eq_nil h]
  simp

/-- A bonus more changes nothing under other keys. -/
theorem stacked_concat_ne {b : Bonus} (h : b.key ≠ k) (bs : List Bonus) :
    stacked k (bs ++ [b]) = stacked k bs := by
  rw [stacked, stacked, valuesUnder_concat_ne h]

/-- **The order of the bonuses** does not matter. -/
theorem stacked_perm (h : bs.Perm cs) : stacked k bs = stacked k cs := by
  have hvalues : (valuesUnder k bs).Perm (valuesUnder k cs) := (h.filter _).map _
  have hmax : (valuesUnder k bs).max? = (valuesUnder k cs).max? := by
    cases hv : (valuesUnder k bs).max? with
    | none =>
      rw [List.max?_eq_none_iff] at hv
      exact (List.max?_eq_none_iff.mpr (hv ▸ hvalues.symm).eq_nil).symm
    | some v =>
      -- the largest value is told by the members alone
      obtain ⟨hmem, hle⟩ := List.max?_eq_some_iff.mp hv
      refine (List.max?_eq_some_iff.mpr ⟨hvalues.subset hmem, fun w hw => hle w ?_⟩).symm
      exact hvalues.symm.subset hw
  rw [stacked, stacked, hvalues.sum_eq, hmax]

/-- So it does not matter for what all keys count. -/
theorem sum_stacked_perm (f : Key → Int → Int) (h : bs.Perm cs) :
    ∑ k ∈ (keys bs).toFinset, f k (stacked k bs) =
      ∑ k ∈ (keys cs).toFinset, f k (stacked k cs) := by
  rw [List.toFinset_eq_of_perm _ _ (h.map key)]
  exact Finset.sum_congr rfl fun k _ => congrArg (f k) (stacked_perm h)

/-! ## One more bonus -/

/-- A single bonus follows every row of bonuses. -/
theorem follows_singleton (b : Bonus) (as : List Bonus) : Follows [b] as := by
  by_cases h : b.key ∈ keys as
  · exact ⟨[b], [], rfl, List.singleton_sublist.mpr h, nofun⟩
  · exact ⟨[], [b], rfl, List.nil_sublist _, List.forall_mem_singleton.mpr h⟩

/-- A general bonus without a condition counts in full, whatever row it is merged into. -/
theorem sum_merge_general {f : Bonus → Int} (hf : ∀ b, b.condition = none → f b = b.value)
    (value : Int) (as : List Bonus) :
    sum f (merge as [⟨value, .general, none⟩]) = sum f as + value := by
  induction as with
  | nil => rw [merge, sum_cons, hf _ rfl, Int.add_comm]
  | cons a as ih =>
    rw [merge]
    split
    · -- it joins a bonus that counts in full, too, and stacks
      rename_i hmeets
      obtain ⟨hkind, hcondition⟩ := Prod.mk.inj (meets_iff.mp hmeets)
      have hcondition' : (a.join ⟨value, .general, none⟩).condition = none := hcondition
      have hjoin : f (a.join ⟨value, .general, none⟩) = f a + value := by
        rw [hf _ hcondition, hf _ hcondition', join, hkind]
        rfl
      have hrest : merge as [] = as := by cases as <;> rfl
      rw [hrest, sum_cons, sum_cons, hjoin, Int.add_right_comm]
    · rw [sum_cons, sum_cons, ih, Int.add_assoc]

end Bonus

namespace Modifier

open Bonus

/-- The chain that bonuses make when they are added one by one: it has one bonus for each key among
them, which counts what is stacked there. -/
structure Accumulates (m : Modifier) (bs : List Bonus) : Prop where
  distinct : m.IsDistinct
  values : ∀ k, m.at? k = if k ∈ keys bs then some (stacked k bs) else none

variable {m n : Modifier} {bs cs : List Bonus}

theorem at?_ofBonus (b : Bonus) (k : Key) :
    (ofBonus b).at? k = if b.key = k then some b.value else none := by
  split
  · rename_i h
    rw [← h]
    exact lookup_cons_self b []
  · rename_i h
    exact lookup_cons_ne h []

theorem accumulates_ofBonus (b : Bonus) : Accumulates (ofBonus b) [b] := by
  refine ⟨List.nodup_singleton _, fun k => ?_⟩
  rw [at?_ofBonus]
  by_cases h : b.key = k
  · subst h
    have hmem : b.key ∈ keys [b] := List.mem_cons_self
    rw [if_pos rfl, if_pos hmem, ← List.nil_append [b], stacked_concat_of_not_mem List.not_mem_nil]
  · have hmem : k ∉ keys [b] := fun hk => h (List.mem_singleton.mp hk).symm
    rw [if_neg h, if_neg hmem]

/-- **One more bonus** is stacked on those with its key. -/
theorem Accumulates.add (h : m.Accumulates bs) (b : Bonus) :
    (m.add (ofBonus b)).Accumulates (bs ++ [b]) := by
  have hcombines : Combines m (ofBonus b) :=
    (combines_iff_follows h.distinct (accumulates_ofBonus b).distinct).mpr
      (follows_singleton b m.links)
  refine ⟨hcombines.distinct, fun k => ?_⟩
  rw [hcombines.values, h.values, at?_ofBonus]
  have hkeys : k ∈ keys (bs ++ [b]) ↔ k ∈ keys bs ∨ b.key = k := by
    rw [keys, List.map_append, List.mem_append, List.map_singleton, List.mem_singleton,
      eq_comm (a := k)]
  by_cases hb : b.key = k
  · subst hb
    rw [if_pos rfl, if_pos (hkeys.mpr (.inr rfl))]
    split
    · -- the chain has a bonus with this key, which the new one joins
      rename_i hmem
      rw [stacked_concat_of_mem hmem]
      rfl
    · rename_i hmem
      rw [stacked_concat_of_not_mem hmem]
      rfl
  · rw [if_neg hb, stacked_concat_ne hb, if_congr (hkeys.trans (or_iff_left hb)) rfl rfl]
    split <;> rfl

/-- The keys of the chain are those of the bonuses. -/
theorem Accumulates.keys_toFinset (h : m.Accumulates bs) :
    (keys m.links).toFinset = (keys bs).toFinset := by
  ext k
  rw [List.mem_toFinset, List.mem_toFinset]
  constructor
  · intro hk
    obtain ⟨b, hb, rfl⟩ := List.mem_map.mp hk
    have hvalue := (mem_iff_lookup h.distinct b).mp hb
    by_contra hnot
    rw [← at?, h.values, if_neg hnot] at hvalue
    cases hvalue
  · intro hk
    by_contra hnot
    have hvalue := h.values k
    rw [at?, lookup_eq_none hnot, if_pos hk] at hvalue
    cases hvalue

/-- What the chain counts, as `f` tells of each bonus, is what `g` tells of the keys. -/
theorem Accumulates.sum_eq (h : m.Accumulates bs) {f : Bonus → Int} {g : Key → Int → Int}
    (hfg : ∀ k v, f ⟨v, k.1, k.2⟩ = g k v) :
    Bonus.sum f m.links = ∑ k ∈ (keys bs).toFinset, g k (stacked k bs) := by
  have hsum : Bonus.sum f m.links = (m.links.map f).sum := by
    rw [Bonus.sum, List.sum_eq_foldr, List.foldr_map]
  rw [hsum, ← h.keys_toFinset, List.sum_toFinset _ h.distinct, List.map_map]
  refine congrArg List.sum (List.map_congr_left fun b hb => ?_)
  have hvalue := (mem_iff_lookup h.distinct b).mp hb
  rw [← at?, h.values, Option.ite_none_right_eq_some] at hvalue
  obtain ⟨-, hstacked⟩ := hvalue
  rw [Function.comp_apply, Option.some.inj hstacked, ← hfg]
  rfl

/-- The lowest value of what was accumulated, key by key. -/
theorem Accumulates.minValue_eq (h : m.Accumulates bs) :
    m.minValue = ∑ k ∈ (keys bs).toFinset, leastUnder k (stacked k bs) :=
  h.sum_eq fun _ _ => rfl

/-- The highest value of what was accumulated, key by key. -/
theorem Accumulates.maxValue_eq (h : m.Accumulates bs) :
    m.maxValue = ∑ k ∈ (keys bs).toFinset, mostUnder k (stacked k bs) :=
  h.sum_eq fun _ _ => rfl

/-- What is held for some bonuses: nothing if there are none, and else the chain that they make. -/
def Holds : Option Modifier → List Bonus → Prop
  | none, bs => bs = []
  | some m, bs => m.Accumulates bs

theorem Holds.at?_eq {held : Option Modifier} (h : Holds held bs) (k : Key) :
    held.bind (·.at? k) = if k ∈ keys bs then some (stacked k bs) else none := by
  cases held with
  | some m => exact Accumulates.values h k
  | none =>
    obtain rfl : bs = [] := h
    rfl

theorem Holds.eq_none_iff {held : Option Modifier} (h : Holds held bs) :
    held = none ↔ bs = [] := by
  cases held with
  | none => exact iff_of_true rfl h
  | some m =>
    refine iff_of_false (Option.some_ne_none m) ?_
    rintro rfl
    have hfirst : m.first.key ∈ (keys m.links).toFinset := List.mem_toFinset.mpr List.mem_cons_self
    rw [Accumulates.keys_toFinset h] at hfirst
    exact absurd (List.mem_toFinset.mp hfirst) List.not_mem_nil

/-- A modifier joined with what is held. -/
def joined (held : Option Modifier) (m : Modifier) : Modifier :=
  match held with
  | some held => held.add m
  | none => m

/-- **One bonus more** is accumulated with those that are held. -/
theorem Holds.joined {held : Option Modifier} (h : Holds held bs) (b : Bonus) :
    (joined held (ofBonus b)).Accumulates (bs ++ [b]) := by
  cases held with
  | some m => exact Accumulates.add h b
  | none =>
    obtain rfl : bs = [] := h
    exact accumulates_ofBonus b

end Modifier

/-! ## Names -/

namespace NamedModifiers

/-- The names are in order, so none is repeated. -/
def IsSorted (named : NamedModifiers) : Prop := named.Pairwise fun a b => a.1 < b.1

variable {named : NamedModifiers} {name : String} {m : Modifier}

/-- Nothing is held under a name that comes before all others. -/
theorem lookup_eq_none_of_lt (h : ∀ entry ∈ named, name < entry.1) : named.lookup name = none := by
  rw [List.lookup_eq_none_iff]
  intro entry hentry
  exact bne_iff_ne.mpr (h entry hentry).ne

/-- Only the name given may be new. -/
theorem mem_give {entry : String × Modifier} (h : entry ∈ named.give name m) :
    entry.1 = name ∨ ∃ held ∈ named, entry.1 = held.1 := by
  induction named with
  | nil => exact .inl (List.mem_singleton.mp h ▸ rfl)
  | cons first rest ih =>
    obtain ⟨held, n⟩ := first
    rw [give_cons] at h
    split at h
    · rename_i hname
      rcases List.mem_cons.mp h with rfl | h
      · exact .inl hname.symm
      · exact .inr ⟨entry, List.mem_cons_of_mem _ h, rfl⟩
    split at h
    · rcases List.mem_cons.mp h with rfl | h
      · exact .inl rfl
      · exact .inr ⟨entry, h, rfl⟩
    · rcases List.mem_cons.mp h with rfl | h
      · exact .inr ⟨_, List.mem_cons_self, rfl⟩
      · refine (ih h).imp_right fun ⟨other, hother, heq⟩ => ?_
        exact ⟨other, List.mem_cons_of_mem _ hother, heq⟩

/-- Giving a modifier keeps the names in order. -/
theorem IsSorted.give (h : named.IsSorted) (name : String) (m : Modifier) :
    (named.give name m).IsSorted := by
  induction named with
  | nil => exact List.pairwise_singleton _ _
  | cons first rest ih =>
    obtain ⟨held, n⟩ := first
    obtain ⟨hfirst, hrest⟩ := List.pairwise_cons.mp h
    rw [give_cons]
    split
    · exact List.pairwise_cons.mpr ⟨hfirst, hrest⟩
    split
    · rename_i hlt
      refine List.pairwise_cons.mpr ⟨List.forall_mem_cons.mpr ⟨hlt, fun entry hentry => ?_⟩, h⟩
      exact hlt.trans (hfirst entry hentry)
    · rename_i hne hlt
      refine List.pairwise_cons.mpr ⟨fun entry hentry => ?_, ih hrest⟩
      obtain heq | ⟨other, hother, heq⟩ := mem_give hentry
      · rw [heq]
        exact lt_of_le_of_ne (not_lt.mp hlt) (Ne.symm hne)
      · rw [heq]
        exact hfirst other hother

/-- **Under its own name** a modifier joins what is held there. -/
theorem lookup_give_self (h : named.IsSorted) (name : String) (m : Modifier) :
    (named.give name m).lookup name = some (Modifier.joined (named.lookup name) m) := by
  induction named with
  | nil => simp [Modifier.joined]
  | cons first rest ih =>
    obtain ⟨held, n⟩ := first
    obtain ⟨hfirst, hrest⟩ := List.pairwise_cons.mp h
    rw [give_cons]
    split
    · rename_i hname
      simp [hname, Modifier.joined]
    split
    · -- the name is new: all names held come after it
      rename_i hne hlt
      have hnone : List.lookup name ((held, n) :: rest) = none :=
        lookup_eq_none_of_lt (List.forall_mem_cons.mpr
          ⟨hlt, fun entry hentry => hlt.trans (hfirst entry hentry)⟩)
      rw [hnone, List.lookup_cons_self]
      rfl
    · rename_i hne hlt
      rw [List.lookup_cons, List.lookup_cons, beq_false_of_ne hne]
      exact ih hrest

/-- **Other names** keep what they hold. -/
theorem lookup_give_ne {other : String} (hother : other ≠ name) (named : NamedModifiers)
    (m : Modifier) : (named.give name m).lookup other = named.lookup other := by
  induction named with
  | nil => simp [hother]
  | cons first rest ih =>
    obtain ⟨held, n⟩ := first
    rw [give_cons]
    split
    · rename_i hname
      subst hname
      rw [List.lookup_cons, List.lookup_cons, beq_false_of_ne hother]
    split
    · rw [List.lookup_cons, beq_false_of_ne hother]
    · rw [List.lookup_cons, List.lookup_cons, ih]

end NamedModifiers

/-! ## Modified numbers -/

/-- The bonuses among those given that are given under a name. -/
def bonusesUnder (name : String) (given : List (Bonus × String)) : List Bonus :=
  (given.filter fun g => g.2 = name).map (·.1)

namespace ModifiedNumber

open Bonus Modifier

/-- A base number with single bonuses given one after the other, each under a name. -/
def accumulate (base : Int) (given : List (Bonus × String)) : ModifiedNumber :=
  given.foldl (fun n g => n.withMerged (.ofBonus g.1) g.2) (.ofBase base)

/-- What a number is when some bonuses were given to it. -/
structure IsGiven (n : ModifiedNumber) (base : Int) (given : List (Bonus × String)) : Prop where
  base_eq : n.base = base
  total : Modifier.Holds n.total (given.map (·.1))
  sorted : n.modifiers.IsSorted
  named : ∀ name, Modifier.Holds (n.modifiers.lookup name) (bonusesUnder name given)

variable {n : ModifiedNumber} {base : Int} {given : List (Bonus × String)}

theorem isGiven_ofBase (base : Int) : IsGiven (.ofBase base) base [] :=
  ⟨rfl, rfl, List.Pairwise.nil, fun _ => rfl⟩

/-- **One more bonus** is given. -/
theorem IsGiven.withMerged (h : n.IsGiven base given) (b : Bonus) (name : String) :
    (n.withMerged (.ofBonus b) name).IsGiven base (given ++ [(b, name)]) := by
  have htotal : (n.withMerged (.ofBonus b) name).total = some (joined n.total (.ofBonus b)) := by
    unfold ModifiedNumber.withMerged joined
    cases n.total <;> rfl
  refine ⟨h.base_eq, ?_, h.sorted.give name _, fun other => ?_⟩
  · rw [htotal, List.map_append]
    exact h.total.joined b
  · have hmodifiers : (n.withMerged (.ofBonus b) name).modifiers =
      n.modifiers.give name (.ofBonus b) := rfl
    rw [hmodifiers]
    by_cases hname : other = name
    · subst hname
      have hunder :
          bonusesUnder other (given ++ [(b, other)]) = bonusesUnder other given ++ [b] := by
        simp [bonusesUnder]
      rw [NamedModifiers.lookup_give_self h.sorted, hunder]
      exact (h.named other).joined b
    · have hunder : bonusesUnder other (given ++ [(b, name)]) = bonusesUnder other given := by
        simp [bonusesUnder, Ne.symm hname]
      rw [NamedModifiers.lookup_give_ne hname, hunder]
      exact h.named other

/-- **All bonuses** are given, one after the other. -/
theorem IsGiven.foldl_withMerged (more : List (Bonus × String)) :
    ∀ {n : ModifiedNumber} {given : List (Bonus × String)}, n.IsGiven base given →
      (more.foldl (fun n g => n.withMerged (.ofBonus g.1) g.2) n).IsGiven base (given ++ more) := by
  induction more with
  | nil =>
    intro n given h
    rw [List.append_nil]
    exact h
  | cons g more ih =>
    intro n given h
    have hrest := ih (h.withMerged g.1 g.2)
    rwa [List.append_assoc] at hrest

/-- **Accumulating bonuses under names** holds what was given, whatever the order. -/
theorem isGiven_accumulate (base : Int) (given : List (Bonus × String)) :
    (accumulate base given).IsGiven base given :=
  (isGiven_ofBase base).foldl_withMerged given

/-- The range of what was given: the base, and the sums over all keys. -/
theorem IsGiven.range (h : n.IsGiven base given) :
    n.minValue = base + ∑ k ∈ (keys (given.map (·.1))).toFinset,
        leastUnder k (stacked k (given.map (·.1))) ∧
    n.maxValue = base + ∑ k ∈ (keys (given.map (·.1))).toFinset,
        mostUnder k (stacked k (given.map (·.1))) := by
  have htotal := h.total
  unfold ModifiedNumber.minValue ModifiedNumber.maxValue
  rw [h.base_eq]
  cases hn : n.total with
  | some m =>
    rw [hn] at htotal
    exact ⟨congrArg (base + ·) htotal.minValue_eq, congrArg (base + ·) htotal.maxValue_eq⟩
  | none =>
    rw [hn] at htotal
    have hnil : given.map (·.1) = [] := htotal
    rw [hnil]
    exact ⟨rfl, rfl⟩

/-- A bonus of the general type and without a condition moves the range by its value, whatever was
given before. -/
theorem range_withMerged_general (n : ModifiedNumber) (value : Int) (name : String) :
    (n.withMerged (.general value) name).minValue = n.minValue + value ∧
      (n.withMerged (.general value) name).maxValue = n.maxValue + value := by
  have hsum : ∀ {f : Bonus → Int}, (∀ b, b.condition = none → f b = b.value) →
      ((n.withMerged (.general value) name).total.map fun m => Bonus.sum f m.links).getD 0 =
        (n.total.map fun m => Bonus.sum f m.links).getD 0 + value := by
    intro f hf
    unfold withMerged
    cases n.total with
    | some m =>
      simp only [Option.map_some, Option.getD_some, links_add]
      exact sum_merge_general hf value m.links
    | none => exact sum_merge_general hf value []
  constructor
  · have hleast := hsum (f := Bonus.least) fun b hb => by rw [Bonus.least, hb]; rfl
    exact (congrArg (n.base + ·) hleast).trans (Int.add_assoc ..).symm
  · have hmost := hsum (f := Bonus.most) fun b hb => by rw [Bonus.most, hb]; rfl
    exact (congrArg (n.base + ·) hmost).trans (Int.add_assoc ..).symm

theorem bonusesUnder_eq_nil_iff {name : String} :
    bonusesUnder name given = [] ↔ name ∉ given.map (·.2) := by
  rw [bonusesUnder, List.map_eq_nil_iff, List.filter_eq_nil_iff, List.mem_map, not_exists]
  exact forall_congr' fun g => by rw [decide_eq_true_eq, not_and]

/-- **Bonuses accumulate alike in any order.** The range is the base and, for every type and
condition among the bonuses, what is stacked there, which a condition may leave out; under a name
the bonuses given under it make a chain in the same way. So neither the order of the bonuses nor the
choice of their names changes the range, and their order does not change what a name holds. -/
theorem accumulate_in_any_order (base : Int) (given : List (Bonus × String)) :
    ((accumulate base given).minValue = base + ∑ k ∈ (keys (given.map (·.1))).toFinset,
        leastUnder k (stacked k (given.map (·.1))) ∧
      (accumulate base given).maxValue = base + ∑ k ∈ (keys (given.map (·.1))).toFinset,
        mostUnder k (stacked k (given.map (·.1)))) ∧
    (∀ name,
      (name ∉ given.map (·.2) → (accumulate base given).modifiers.lookup name = none) ∧
      (name ∈ given.map (·.2) → ∃ m, (accumulate base given).modifiers.lookup name = some m ∧
        m.Accumulates (bonusesUnder name given))) ∧
    (∀ given' : List (Bonus × String), (given'.map (·.1)).Perm (given.map (·.1)) →
      (accumulate base given').minValue = (accumulate base given).minValue ∧
      (accumulate base given').maxValue = (accumulate base given).maxValue) ∧
    ∀ given' : List (Bonus × String), given'.Perm given → ∀ name k,
      ((accumulate base given').modifiers.lookup name).bind (·.at? k) =
        ((accumulate base given).modifiers.lookup name).bind (·.at? k) := by
  have hgiven := isGiven_accumulate base given
  refine ⟨hgiven.range, fun name => ⟨fun hname => ?_, fun hname => ?_⟩, ?_, ?_⟩
  · exact (hgiven.named name).eq_none_iff.mpr (bonusesUnder_eq_nil_iff.mpr hname)
  · have hheld := hgiven.named name
    have hne : bonusesUnder name given ≠ [] := fun hnil => bonusesUnder_eq_nil_iff.mp hnil hname
    obtain ⟨m, hm⟩ := Option.ne_none_iff_exists'.mp (mt hheld.eq_none_iff.mp hne)
    rw [hm] at hheld
    exact ⟨m, hm, hheld⟩
  · intro given' hperm
    obtain ⟨hmin, hmax⟩ := hgiven.range
    obtain ⟨hmin', hmax'⟩ := (isGiven_accumulate base given').range
    rw [hmin, hmin', hmax, hmax', sum_stacked_perm leastUnder hperm,
      sum_stacked_perm mostUnder hperm]
    exact ⟨rfl, rfl⟩
  · intro given' hperm name k
    have hunder : (bonusesUnder name given').Perm (bonusesUnder name given) :=
      (hperm.filter _).map _
    have hkeys : k ∈ keys (bonusesUnder name given') ↔ k ∈ keys (bonusesUnder name given) :=
      (hunder.map key).mem_iff
    rw [((isGiven_accumulate base given').named name).at?_eq, (hgiven.named name).at?_eq,
      stacked_perm hunder, if_congr hkeys rfl rfl]

/-- Gear worn in two orders and under other names: the armor bonuses do not stack, the dodge bonuses
do, and one of them may not apply. -/
theorem accumulate_in_any_order_gear :
    let given : List (Bonus × String) :=
      [(⟨2, .armor, none⟩, "leather"), (⟨1, .dodge, some "moving"⟩, "feat"),
        (⟨5, .armor, none⟩, "plate"), (⟨2, .dodge, some "moving"⟩, "feat")]
    let given' : List (Bonus × String) :=
      [(⟨5, .armor, none⟩, "gear"), (⟨2, .dodge, some "moving"⟩, "gear"),
        (⟨1, .dodge, some "moving"⟩, "feat"), (⟨2, .armor, none⟩, "gear")]
    (given'.map (·.1)).Perm (given.map (·.1)) ∧ given.reverse.Perm given ∧
      "feat" ∈ given.map (·.2) ∧ "ring" ∉ given.map (·.2) ∧
      (accumulate 10 given).minValue = 15 ∧ (accumulate 10 given').minValue = 15 ∧
      (accumulate 10 given).maxValue = 18 ∧ (accumulate 10 given').maxValue = 18 ∧
      (accumulate 10 given).modifiers.lookup "ring" = none ∧
      (∃ m, (accumulate 10 given).modifiers.lookup "feat" = some m ∧
        m.Accumulates [⟨1, .dodge, some "moving"⟩, ⟨2, .dodge, some "moving"⟩]) ∧
      ((accumulate 10 given.reverse).modifiers.lookup "feat").bind (·.at? (.dodge, some "moving")) =
        ((accumulate 10 given).modifiers.lookup "feat").bind (·.at? (.dodge, some "moving")) := by
  intro given given'
  obtain ⟨⟨hmin, hmax⟩, hnamed, hrange, hheld⟩ := accumulate_in_any_order 10 given
  have hperm : (given'.map (·.1)).Perm (given.map (·.1)) := by decide
  have hreverse : given.reverse.Perm given := List.reverse_perm given
  have hfeat : "feat" ∈ given.map (·.2) := by decide
  have hring : "ring" ∉ given.map (·.2) := by decide
  obtain ⟨hmin', hmax'⟩ := hrange given' hperm
  have hleast : (accumulate 10 given).minValue = 15 := hmin.trans (by decide)
  have hmost : (accumulate 10 given).maxValue = 18 := hmax.trans (by decide)
  exact ⟨hperm, hreverse, hfeat, hring, hleast, hmin'.trans hleast, hmost, hmax'.trans hmost,
    (hnamed "ring").1 hring, (hnamed "feat").2 hfeat, hheld given.reverse hreverse _ _⟩

end ModifiedNumber

end Tabletop
