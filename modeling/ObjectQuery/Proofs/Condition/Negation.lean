import ObjectQuery.Condition.Tree
import ObjectQuery.Proofs.Grammar.Condition

namespace ObjectQuery

/-!
Negations moved inwards. The list that results holds no negation, keeps the
operands in their order and has the truth of the list it was made from.
-/

namespace Formula

/-- The formula, or its negation where `negate` holds, without negations. -/
def distributed (negate : Bool) : Formula α → Formula α
  | compared left comparison right =>
      .compared left (if negate then comparison.negated else comparison) right
  | not inner => inner.distributed (!negate)
  | both left right =>
      if negate then
        .either (left.distributed true) (right.distributed true)
      else
        .both (left.distributed false) (right.distributed false)
  | either left right =>
      if negate then
        .both (left.distributed true) (right.distributed true)
      else
        .either (left.distributed false) (right.distributed false)

@[simp]
theorem distributed_compared (negate : Bool) (left right : α) (comparison : Comparison) :
    (compared left comparison right).distributed negate =
      .compared left (if negate then comparison.negated else comparison) right := rfl

@[simp]
theorem distributed_not (negate : Bool) (inner : Formula α) :
    inner.not.distributed negate = inner.distributed (!negate) := rfl

@[simp]
theorem distributed_both (negate : Bool) (left right : Formula α) :
    (left.both right).distributed negate =
      if negate then .either (left.distributed true) (right.distributed true)
      else .both (left.distributed false) (right.distributed false) := rfl

@[simp]
theorem distributed_either (negate : Bool) (left right : Formula α) :
    (left.either right).distributed negate =
      if negate then .both (left.distributed true) (right.distributed true)
      else .either (left.distributed false) (right.distributed false) := rfl

theorem distributed_tree_compared (start : Nat) (negate : Bool) (left right : α)
    (comparison : Comparison) :
    (tree start (.compared left comparison right)).distributed negate =
      ((compared left comparison right).distributed negate).postfixList := by
  have compares := comparison.compares
  have negated := comparison.negated?_eq
  cases negate <;>
    simp [tree, ConditionTree.distributed, postfixList, ConditionLeaf.entry, compares, negated]

theorem distributed_tree (start : Nat) (negate : Bool) (formula : Formula α) :
    (formula.tree start).distributed negate = (formula.distributed negate).postfixList := by
  induction formula generalizing start negate with
  | compared left comparison right =>
      exact distributed_tree_compared start negate left right comparison
  | not inner induction => exact induction start (!negate)
  | both left right leftInduction rightInduction
  | either left right leftInduction rightInduction =>
      cases negate <;>
        simp [tree, ConditionTree.distributed, postfixList, Operator.isLogical,
          Operator.negated?, leftInduction, rightInduction]

theorem distribute_postfixList (formula : Formula α) :
    Condition.distribute formula.postfixList = .ok (formula.distributed false).postfixList := by
  rw [Condition.distribute, ofPostfix_postfixList]
  exact congrArg Except.ok (distributed_tree 0 false formula)

def NegatesComparisons (compare : α → Operator → α → Truth) : Prop :=
  ∀ left operator right negated, operator.isLogical = false →
    operator.negated? = some negated →
      compare left negated right = (compare left operator right).not

theorem negatesComparisons_bySign : NegatesComparisons (α := α) Truth.bySign := by
  intro _ operator _ negated compares negation
  cases operator <;> cases negation <;> first | rfl | cases compares

theorem truth_distributed {compare : α → Operator → α → Truth}
    (negates : NegatesComparisons compare) (negate : Bool) (formula : Formula α) :
    (formula.distributed negate).truth compare =
      if negate then (formula.truth compare).not else formula.truth compare := by
  induction formula generalizing negate with
  | compared left comparison right =>
      cases negate with
      | false => rfl
      | true =>
          exact negates left comparison.operator right comparison.negated.operator
            comparison.compares comparison.negated?_eq
  | not inner induction =>
      cases negate <;> simp [truth, induction]
  | both left right leftInduction rightInduction =>
      cases negate <;>
        simp [truth, leftInduction, rightInduction, Truth.not_and]
  | either left right leftInduction rightInduction =>
      cases negate <;>
        simp [truth, leftInduction, rightInduction, Truth.not_or]

theorem not_mem_postfixList_distributed (negate : Bool) (formula : Formula α) :
    .operator .not ∉ (formula.distributed negate).postfixList := by
  induction formula generalizing negate with
  | compared left comparison right =>
      have apart (sign : Comparison) : .not ≠ sign.operator :=
        (sign.ne_of_isLogical .not rfl).symm
      cases negate <;> simp [postfixList, apart]
  | not inner induction => exact induction (!negate)
  | both left right leftInduction rightInduction
  | either left right leftInduction rightInduction =>
      cases negate <;> simp [postfixList, leftInduction, rightInduction]

theorem operands_distributed (negate : Bool) (formula : Formula α) :
    (formula.distributed negate).operands = formula.operands := by
  induction formula generalizing negate with
  | compared left comparison right => rfl
  | not inner induction => exact induction (!negate)
  | both left right leftInduction rightInduction
  | either left right leftInduction rightInduction =>
      cases negate <;> simp [operands, leftInduction, rightInduction]

theorem distributed_distributed (negate : Bool) (formula : Formula α) :
    (formula.distributed negate).distributed false = formula.distributed negate := by
  induction formula generalizing negate with
  | compared left comparison right => rfl
  | not inner induction => exact induction (!negate)
  | both left right leftInduction rightInduction
  | either left right leftInduction rightInduction =>
      cases negate <;> simp [leftInduction, rightInduction]

end Formula

namespace Condition

open Formula

/--
Conditions that are read can be rid of their negations: what results has the
truth of what was read whenever negated signs say the negation, holds the same
operands in the same order and no negation, and stays as it is from then on.
-/
theorem distribute_of_parsed {clause : ConditionClause} {cursor rest : Cursor}
    {conditions : List (Condition (Field Query))}
    (parsed : Grammar.conditions clause cursor = .ok conditions rest)
    {compare : Field Query → Operator → Field Query → Truth}
    (negates : NegatesComparisons compare) :
    ∃ distributed truth, distribute conditions = .ok distributed ∧
      evaluate? compare conditions = some truth ∧
      evaluate? compare distributed = some truth ∧
      .operator .not ∉ distributed ∧
      distributed.filterMap operand? = conditions.filterMap operand? ∧
      distribute distributed = .ok distributed := by
  obtain ⟨formula, rfl⟩ := Grammar.exists_formula parsed
  refine ⟨(formula.distributed false).postfixList, formula.truth compare,
    distribute_postfixList formula, evaluate?_postfixList compare formula, ?_,
    not_mem_postfixList_distributed false formula, ?_, ?_⟩
  · rw [evaluate?_postfixList, truth_distributed negates]
    rfl
  · rw [filterMap_operand?_postfixList, filterMap_operand?_postfixList, operands_distributed]
  · rw [distribute_postfixList, distributed_distributed]

def negatedGroup : Cursor :=
  Cursor.ofText "not (a < 1 or b in (2))" none

def negatedGroupConditions : List (Condition (Field Query)) :=
  [.operand (.ofKind (.column ["a"])), .operand (.ofKind (.literal (.int 1))), .operator .lt,
    .operand (.ofKind (.column ["b"])),
    .operand (.ofKind (.literal (.list [.literal (.int 2)]))), .operator .isIn,
    .operator .or, .operator .not]

theorem conditions_negatedGroup :
    Grammar.conditions .filter negatedGroup =
      .ok negatedGroupConditions (negatedGroup.advance 23) := by
  with_unfolding_all rfl

theorem distribute_of_negatedGroup :
    Grammar.conditions .filter negatedGroup =
        .ok negatedGroupConditions (negatedGroup.advance 23) ∧
      NegatesComparisons (α := Field Query) Truth.bySign ∧
      ∃ distributed truth, distribute negatedGroupConditions = .ok distributed ∧
        evaluate? Truth.bySign negatedGroupConditions = some truth ∧
        evaluate? Truth.bySign distributed = some truth ∧
        .operator .not ∉ distributed ∧
        distributed.filterMap operand? = negatedGroupConditions.filterMap operand? ∧
        distribute distributed = .ok distributed :=
  ⟨conditions_negatedGroup, negatesComparisons_bySign,
    distribute_of_parsed conditions_negatedGroup negatesComparisons_bySign⟩

end Condition

end ObjectQuery
