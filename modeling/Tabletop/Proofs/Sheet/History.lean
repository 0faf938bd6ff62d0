import Tabletop.Proofs.Expression.Order
import Tabletop.Sheet.Combination

/-!
# Histories of a combination

A combination is built up by calls, one after the other: values, modifiers and expressions are
added, and other combinations are merged into it. Where among the other calls do those that add an
expression stand? It does not matter, nor does their order among themselves.

* **Call** is one call and **run** makes them; no call reads the expressions
  (`make_withExpressions`), so a history leaves what its other calls make, with the expressions
  behind those of before (`run_eq`);
* what is computed from the expressions depends on them only up to their order
  (`finish_withExpressions`), because they apply in an order of their own;
* hence **histories with the same expressions** and the same other calls have the same total, base,
  minimum and maximum (`expressions_in_any_order`).
-/

namespace Tabletop.Combination

variable {α : Type}

/-! ## Calls -/

/-- One call that adds to a combination. -/
inductive Call (α : Type) where
  | value (v : Contribution α)
  | modifier (m : Contribution Modifier)
  | expression (e : Contribution Expression)
  | merge (other : Combination α) (description : String)

namespace Call

/-- Makes a call. -/
def make (c : Combination α) : Call α → Combination α
  | value v => c.addValue v
  | modifier m => c.addModifier m
  | expression e => c.addExpression e
  | merge other description => c.add other description

/-- The expression that a call adds. -/
def expression? : Call α → Option (Contribution Expression)
  | expression e => some e
  | _ => none

end Call

/-- Makes calls one after the other. -/
def run (c : Combination α) (calls : List (Call α)) : Combination α := calls.foldl Call.make c

/-- The expressions that calls add. -/
def expressionsOf (calls : List (Call α)) : List (Contribution Expression) :=
  calls.filterMap Call.expression?

/-- The calls that add no expression. -/
def othersOf (calls : List (Call α)) : List (Call α) :=
  calls.filter fun call => call.expression?.isNone

/-- A combination with other expressions. -/
def withExpressions (c : Combination α) (es : List (Contribution Expression)) : Combination α :=
  { c with expressions := es }

/-- A call that adds no expression goes by them. -/
theorem make_withExpressions {call : Call α} (h : call.expression? = none) (c : Combination α)
    (es : List (Contribution Expression)) :
    call.make (c.withExpressions es) = (call.make c).withExpressions es := by
  cases call with
  | value v =>
    obtain ⟨name, entry, root, values, modifiers, expressions⟩ := c
    cases root <;> rfl
  | modifier m => rfl
  | merge other description => rfl
  | expression e => cases h

theorem expressions_make (c : Combination α) (call : Call α) :
    (call.make c).expressions = c.expressions ++ call.expression?.toList := by
  cases call with
  | value v =>
    obtain ⟨name, entry, root, values, modifiers, expressions⟩ := c
    cases root <;> exact (List.append_nil _).symm
  | modifier m => exact (List.append_nil _).symm
  | merge other description => exact (List.append_nil _).symm
  | expression e => rfl

/-- Expressions pass by calls that bring none. -/
theorem run_withExpressions {calls : List (Call α)}
    (h : ∀ call ∈ calls, call.expression? = none) (es : List (Contribution Expression)) :
    ∀ c : Combination α, run (c.withExpressions es) calls = (run c calls).withExpressions es := by
  induction calls with
  | nil => exact fun c => rfl
  | cons call calls ih =>
    intro c
    -- the call leaves the expressions as they are, so the rest of the history starts from them
    have hcall := make_withExpressions (h call List.mem_cons_self) c es
    rw [run, List.foldl_cons, hcall]
    exact ih (fun other hother => h other (List.mem_cons_of_mem call hother)) (call.make c)

/-- **A history** leaves what its other calls make, and the expressions of all. -/
theorem run_eq (calls : List (Call α)) : ∀ c : Combination α,
    run c calls =
      (run c (othersOf calls)).withExpressions (c.expressions ++ expressionsOf calls) := by
  induction calls with
  | nil =>
    intro c
    exact congrArg c.withExpressions (List.append_nil _).symm
  | cons call calls ih =>
    intro c
    have hstep : run c (call :: calls) = run (call.make c) calls := rfl
    rw [hstep, ih, expressions_make, List.append_assoc]
    cases hcall : call.expression? with
    | none =>
      have hothers : othersOf (call :: calls) = call :: othersOf calls :=
        List.filter_cons_of_pos (by rw [hcall]; rfl)
      have hexpressions : expressionsOf (call :: calls) = expressionsOf calls :=
        List.filterMap_cons_none hcall
      rw [hothers, hexpressions]
      rfl
    | some e =>
      have hothers : othersOf (call :: calls) = othersOf calls :=
        List.filter_cons_of_neg (by rw [hcall]; exact Bool.false_ne_true)
      have hexpressions : expressionsOf (call :: calls) = e :: expressionsOf calls :=
        List.filterMap_cons_some hcall
      have hmake : call.make c = c.withExpressions (c.expressions ++ [e]) := by
        cases call with
        | expression e' =>
          cases hcall
          rfl
        | _ => cases hcall
      -- the other calls do not see the expression that is there already
      have hnone : ∀ other ∈ othersOf calls, other.expression? = none :=
        fun other hother => Option.isNone_iff_eq_none.mp (List.mem_filter.mp hother).2
      rw [hothers, hexpressions, hmake, run_withExpressions hnone]
      rfl

/-! ## What is computed from a combination -/

section Results

variable [Quantity α]

/-- The same expressions in any order finish a value alike. -/
theorem finish_withExpressions (c : Combination α) {es fs : List (Contribution Expression)}
    (h : (es.map (·.value)).Perm (fs.map (·.value))) :
    (c.withExpressions es).finish = (c.withExpressions fs).finish := by
  have hempty : es.isEmpty = fs.isEmpty := by
    rw [← List.isEmpty_map, h.isEmpty_eq, List.isEmpty_map]
  have happly := fun value : Option α => Expression.applyAll_eq_of_perm h value
  funext value
  unfold finish withExpressions
  rw [hempty, happly]

/-- The results of a combination see its expressions only by what they make of a value. -/
theorem results_withExpressions {c : Combination α} {es fs : List (Contribution Expression)}
    (h : (c.withExpressions es).finish = (c.withExpressions fs).finish) :
    (c.withExpressions es).total = (c.withExpressions fs).total ∧
    (c.withExpressions es).base = (c.withExpressions fs).base ∧
    (c.withExpressions es).minimum = (c.withExpressions fs).minimum ∧
    (c.withExpressions es).maximum = (c.withExpressions fs).maximum :=
  ⟨congrArg (Except.map · (sum c.valuesOnly)) h, congrArg (Except.map · (sum _)) h,
    congrFun h (pick .lt c.valuesOnly), congrFun h (pick .gt c.valuesOnly)⟩

/-- **Expressions can be added in any order.** Only equal expressions have the same place in their
order of application, so the order they are given in decides nothing: neither what they make of a
value, nor what a combination amounts to. -/
theorem expressions_in_any_order {es fs : List Expression} (h : es.Perm fs) :
    Std.TransCmp Expression.compare ∧
    (∀ a b : Expression, a.compare b = .eq ↔ a = b) ∧
    (∀ a b : Expression, a.priority = b.priority → a.text = b.text → a = b) ∧
    (∀ value : Option α, Expression.applyAll es value = Expression.applyAll fs value) ∧
    ∀ (c : Combination α) {calls calls' : List (Call α)}, othersOf calls = othersOf calls' →
      (expressionsOf calls).map (·.value) = es → (expressionsOf calls').map (·.value) = fs →
        (run c calls).total = (run c calls').total ∧
        (run c calls).base = (run c calls').base ∧
        (run c calls).minimum = (run c calls').minimum ∧
        (run c calls).maximum = (run c calls').maximum := by
  refine ⟨inferInstance, fun a b => Std.LawfulEqCmp.compare_eq_iff_eq,
    fun a b _ htext => Expression.text_injective htext, Expression.applyAll_eq_of_perm h, ?_⟩
  intro c calls calls' hothers hes hfs
  rw [run_eq calls, run_eq calls', hothers]
  refine results_withExpressions (finish_withExpressions _ ?_)
  rw [List.map_append, List.map_append, hes, hfs]
  exact h.append_left _

/-- The price of a wand, half as dear again, whether the factor is added last or first. -/
theorem wand_in_any_order :
    [Expression.magicItem .wand 1 1 0 0, .factor 3 2].Perm
      [.factor 3 2, .magicItem .wand 1 1 0 0] ∧
    Expression.applyAll [.magicItem .wand 1 1 0 0, .factor 3 2] (none : Option Money) =
      Expression.applyAll [.factor 3 2, .magicItem .wand 1 1 0 0] none ∧
    (run (empty "price" "wand") [.value ⟨Money.gold 7, "smith", none⟩,
        .expression ⟨.magicItem .wand 1 1 0 0, "smith", some "spell"⟩,
        .expression ⟨.factor 3 2, "market", none⟩]).total =
      (run (empty "price" "wand") [.expression ⟨.factor 3 2, "bazaar", none⟩,
        .value ⟨Money.gold 7, "smith", none⟩,
        .expression ⟨.magicItem .wand 1 1 0 0, "smith", none⟩]).total := by
  have h := List.Perm.swap (.factor 3 2) (Expression.magicItem .wand 1 1 0 0) []
  obtain ⟨-, -, -, happly, hrun⟩ := expressions_in_any_order (α := Money) h
  refine ⟨h, happly none, (hrun (empty "price" "wand") ?_ ?_ ?_).1⟩ <;> rfl

end Results

end Tabletop.Combination
