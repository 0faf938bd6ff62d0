import Tabletop.Sheet.Combination

/-!
# What is collected

The tree of an entry holds what the entry and its bases store, in the order in which they come:

* **Entry.lineage** lists an entry and all those that it derives from, depth first;
* the tree lists **the entries of the lineage that store no modifier, once and in order**
  (`Entry.originsAll_collect`), although the bases of an entry without a node hang below the first
  of their nodes; the modifiers of the others are collected in the same order
  (`Entry.modifiers_collect`);
* **Entry.plainValues** are the values that they store, and **Node.values** those that a derivation
  tree holds: collecting loses and doubles none of them (`Entry.valuesAll_collect`);
* **Entry.heir?** is the entry that the root of the tree belongs to: the first one of the lineage
  that stores no modifier (`Entry.origin_collect`). What the root holds and what is below it are
  together all values, in order (`Combination.topValue_append_below`).
-/

namespace Tabletop

variable {α : Type}

namespace Node

theorem originsAll_append (ns more : List (Node α)) :
    originsAll (ns ++ more) = originsAll ns ++ originsAll more := by
  induction ns with
  | nil => rfl
  | cons n ns ih => rw [List.cons_append, originsAll, originsAll, ih, List.append_assoc]

theorem originsAll_singleton (n : Node α) : originsAll [n] = n.origins := List.append_nil _

/-- More children come behind all that the tree holds. -/
theorem origins_addChildren (n : Node α) (more : List (Node α)) :
    (n.addChildren more).origins = n.origins ++ originsAll more := by
  obtain ⟨origin, children⟩ := n
  exact congrArg (origin :: ·) (originsAll_append children more)

/-- The values that a derivation tree holds, depth first. -/
def values (n : Node α) : List α := n.origins.filterMap (·.value)

/-- The values that some derivation trees hold. -/
def valuesAll (ns : List (Node α)) : List α := (originsAll ns).filterMap (·.value)

@[simp] theorem valuesAll_nil : valuesAll ([] : List (Node α)) = [] := rfl

@[simp] theorem valuesAll_cons (n : Node α) (ns : List (Node α)) :
    valuesAll (n :: ns) = n.values ++ valuesAll ns := by
  rw [valuesAll, originsAll, List.filterMap_append]
  rfl

@[simp] theorem valuesAll_append (ns more : List (Node α)) :
    valuesAll (ns ++ more) = valuesAll ns ++ valuesAll more := by
  rw [valuesAll, originsAll_append, List.filterMap_append]
  rfl

/-- The values of a node: its own, if it has one, and those below it. -/
theorem values_eq (n : Node α) : n.values = n.origin.value.toList ++ valuesAll n.children := by
  obtain ⟨origin, children⟩ := n
  rw [values, origins, List.filterMap_cons]
  cases h : origin.value <;> simp [Node.origin, Node.children, valuesAll, h]

/-- More children bring their values behind those at hand. -/
theorem values_addChildren (n : Node α) (more : List (Node α)) :
    (n.addChildren more).values = n.values ++ valuesAll more := by
  rw [values, origins_addChildren, List.filterMap_append]
  rfl

end Node

namespace Entry

open Node

mutual

/-- The entry and those that it derives from, depth first. -/
def lineage : Entry α → List (Entry α)
  | mk key stored bases => mk key stored bases :: lineageAll bases

/-- Some entries and those that they derive from. -/
def lineageAll : List (Entry α) → List (Entry α)
  | [] => []
  | e :: es => e.lineage ++ lineageAll es

end

/-- The plain value among what is stored. -/
def plain? : Option (Stored α) → Option α
  | some (.plain value) => some value
  | _ => none

/-- The plain value that the entry itself stores under a name. -/
def ownValue? (name : String) (e : Entry α) : Option α := plain? (e.stored? name)

/-- The plain values that the entry and its bases store under a name. -/
def plainValues (name : String) (e : Entry α) : List α := e.lineage.filterMap (ownValue? name)

/-- The plain values that the direct and indirect bases of the entry store under a name. -/
def inheritedValues (name : String) (e : Entry α) : List α :=
  (lineageAll e.bases).filterMap (ownValue? name)

/-- Whether the entry itself stores a modifier under a name. -/
def storesModifier (name : String) (e : Entry α) : Bool :=
  match e.stored? name with
  | some (.modifier _) => true
  | _ => false

/-- The first entry of the lineage that stores no modifier under a name. -/
def heir? (name : String) (e : Entry α) : Option (Entry α) :=
  e.lineage.find? fun d => !d.storesModifier name

/-- An entry without a modifier is its own heir. -/
theorem heir?_eq_self {name : String} {e : Entry α} (h : e.storesModifier name = false) :
    e.heir? name = some e := by
  obtain ⟨key, stored, bases⟩ := e
  rw [heir?, lineage, List.find?_cons, h]
  rfl

/-- An entry that stores a modifier has no value of its own. -/
theorem ownValue?_of_storesModifier {name : String} {e : Entry α}
    (h : e.storesModifier name = true) : e.ownValue? name = none := by
  unfold storesModifier at h
  unfold ownValue?
  rcases hs : e.stored? name with _ | _ | _ <;> rw [hs] at h
  · cases h
  · cases h
  · rfl

/-- The values that an entry reaches: its own, and those of its bases. -/
theorem plainValues_eq (name : String) (e : Entry α) :
    e.plainValues name = (e.ownValue? name).toList ++ e.inheritedValues name := by
  obtain ⟨key, stored, bases⟩ := e
  rw [plainValues, lineage, List.filterMap_cons]
  cases (mk key stored bases).ownValue? name <;> rfl

/-- The modifier that the entry itself stores under a name. -/
def ownModifier? (name : String) (e : Entry α) : Option Modifier :=
  match e.stored? name with
  | some (.modifier m) => some m
  | _ => none

/-! ## The tree in order -/

/-- What the tree holds of an entry without a modifier. -/
def originOf (name : String) (e : Entry α) : Origin α := ⟨e.key, e.ownValue? name, none⟩

/-- A modifier collected from the entry that stores it. -/
def collected (e : Entry α) (m : Modifier) : Contribution Modifier := ⟨m, e.key, some "collect"⟩

/-- An entry has a node unless it stores a modifier. -/
theorem originsAll_ownNode (name : String) (e : Entry α) :
    originsAll (ownNode e.key (e.stored? name)).toList =
      if e.storesModifier name then [] else [e.originOf name] := by
  unfold storesModifier originOf ownValue?
  rcases e.stored? name with _ | _ | _ <;> rfl

/-- Trees that hang below one of them keep the order of all. -/
theorem originsAll_rootOver (own : Option (Node α)) (below : List (Node α)) :
    originsAll (rootOver own below).toList = originsAll own.toList ++ originsAll below := by
  cases own with
  | some n => simp only [rootOver, Option.toList_some, originsAll_singleton, origins_addChildren]
  | none =>
    cases below with
    | nil => rfl
    | cons first rest =>
      -- the first tree takes the others below it, behind all that it holds
      simp only [rootOver, Option.toList_some, Option.toList_none, originsAll_singleton,
        origins_addChildren]
      rfl

mutual

/-- **Collecting keeps every entry once and in order**, save for those that store a modifier. -/
theorem originsAll_collect (name : String) :
    ∀ e : Entry α, originsAll (e.collect name).1.toList =
      (e.lineage.filter fun d => !d.storesModifier name).map (originOf name)
  | mk key stored bases => by
    have hown : originsAll (ownNode key ((mk key stored bases).stored? name)).toList = _ :=
      originsAll_ownNode name (mk key stored bases)
    rw [collect, originsAll_rootOver, hown, originsAll_collectAll name bases, lineage,
      List.filter_cons]
    cases (mk key stored bases).storesModifier name <;> rfl

/-- **The trees of entries** hold all entries reached that store no modifier, in the order of the
lineages. -/
theorem originsAll_collectAll (name : String) :
    ∀ es : List (Entry α), originsAll (collectAll name es).1 =
      ((lineageAll es).filter fun d => !d.storesModifier name).map (originOf name)
  | [] => rfl
  | e :: es => by
    rw [collectAll, lineageAll, originsAll_append, originsAll_collect name e,
      originsAll_collectAll name es, List.filter_append, List.map_append]

end

theorem ownModifiers_eq (name : String) (e : Entry α) :
    ownModifiers e.key (e.stored? name) = ((e.ownModifier? name).map e.collected).toList := by
  unfold ownModifier?
  rcases e.stored? name with _ | _ | _ <;> rfl

mutual

/-- **The modifiers** are collected in order, too. -/
theorem modifiers_collect (name : String) :
    ∀ e : Entry α, (e.collect name).2 =
      e.lineage.filterMap fun d => (d.ownModifier? name).map d.collected
  | mk key stored bases => by
    have hcollect : ((mk key stored bases).collect name).2 =
        ownModifiers key ((mk key stored bases).stored? name) ++ (collectAll name bases).2 := by
      rw [collect]
    have hown : ownModifiers key ((mk key stored bases).stored? name) = _ :=
      ownModifiers_eq name (mk key stored bases)
    rw [hcollect, hown, modifiers_collectAll name bases, lineage, List.filterMap_cons]
    cases ((mk key stored bases).ownModifier? name).map (mk key stored bases).collected <;> rfl

/-- **The modifiers of entries** are those of all entries reached, in the order of the lineages. -/
theorem modifiers_collectAll (name : String) :
    ∀ es : List (Entry α), (collectAll name es).2 =
      (lineageAll es).filterMap fun d => (d.ownModifier? name).map d.collected
  | [] => rfl
  | e :: es => by
    have hcollect : (collectAll name (e :: es)).2 =
        (e.collect name).2 ++ (collectAll name es).2 := by
      rw [collectAll]
    rw [hcollect, modifiers_collect name e, modifiers_collectAll name es, lineageAll,
      List.filterMap_append]

end

/-- **Collecting loses and doubles no value.** -/
theorem valuesAll_collect (name : String) (e : Entry α) :
    valuesAll (e.collect name).1.toList = e.plainValues name := by
  rw [valuesAll, originsAll_collect, List.filterMap_map, List.filterMap_filter, plainValues]
  refine congrArg (List.filterMap · e.lineage) (funext fun d => ?_)
  cases hstores : d.storesModifier name with
  | false => rfl
  | true => exact (ownValue?_of_storesModifier hstores).symm

/-- The root comes first of all that the tree holds. -/
theorem head?_originsAll (root : Option (Node α)) :
    (originsAll root.toList).head? = root.map Node.origin := by
  rcases root with _ | ⟨origin, children⟩ <;> rfl

/-- **The root of the tree** belongs to the heir. -/
theorem origin_collect (name : String) (e : Entry α) :
    (e.collect name).1.map Node.origin = (e.heir? name).map (originOf name) := by
  rw [← head?_originsAll, originsAll_collect, List.head?_map, List.head?_filter, heir?]

end Entry

namespace Combination

/-- What the root of a collected tree holds is what the heir stores. -/
theorem topValue_collect (name : String) (e : Entry α) :
    (collect name e).topValue = (e.heir? name).bind (Entry.ownValue? name) := by
  have htop : (collect name e).topValue = ((e.collect name).1.map Node.origin).bind (·.value) := by
    rw [Option.bind_map]
    rfl
  rw [htop, Entry.origin_collect, Option.bind_map]
  rfl

/-- The values below the root. -/
def valuesBelow (c : Combination α) : List α :=
  (c.root.map fun n => Node.valuesAll n.children).getD []

/-- The root's value and those below it are all values of the entry and its bases. -/
theorem topValue_append_below (name : String) (e : Entry α) :
    (collect name e).topValue.toList ++ (collect name e).valuesBelow =
      (e.ownValue? name).toList ++ e.inheritedValues name := by
  rw [← Entry.plainValues_eq, ← Entry.valuesAll_collect]
  have hroot : (collect name e).root = (e.collect name).1 := rfl
  rw [topValue, valuesBelow, hroot]
  cases (e.collect name).1 with
  | none => rfl
  | some n =>
    rw [Option.toList_some, Node.valuesAll_cons, Node.valuesAll_nil, List.append_nil,
      Node.values_eq]
    rfl

/-- **Collecting keeps every entry once and in order.** The tree lists, depth first, the entries of
the lineage that store no modifier, with the values that they store, and is missing exactly if all
of them store one; and the modifiers are those of the other entries, in the same order. -/
theorem collect_in_order (name : String) (e : Entry α) :
    Node.originsAll (collect name e).root.toList =
      (e.lineage.filter fun d => !d.storesModifier name).map
        (fun d => ⟨d.key, d.ownValue? name, none⟩) ∧
    ((collect name e).root = none ↔ ∀ d ∈ e.lineage, d.storesModifier name = true) ∧
    (collect name e).modifiers =
      e.lineage.filterMap fun d =>
        (d.ownModifier? name).map fun m => ⟨m, d.key, some "collect"⟩ := by
  refine ⟨e.originsAll_collect name, ?_, e.modifiers_collect name⟩
  have hroot : (collect name e).root = none ↔ (e.collect name).1.map Node.origin = none :=
    Option.map_eq_none_iff.symm
  rw [hroot, Entry.origin_collect, Option.map_eq_none_iff, Entry.heir?, List.find?_eq_none]
  simp only [Bool.not_eq_true, Bool.not_eq_false']

end Combination

end Tabletop
