import ObjectQuery.Condition.Basic
import ObjectQuery.Condition.Tree

namespace ObjectQuery

/-!
The truth of postfix lists under three-valued logic. A reader keeps a stack of
operands and truth values, and what comparisons say is left open.
-/

inductive Truth where
  | holds
  | fails
  | unknown
  deriving DecidableEq, Repr

namespace Truth

def not : Truth → Truth
  | holds => fails
  | fails => holds
  | unknown => unknown

def and : Truth → Truth → Truth
  | fails, _ => fails
  | _, fails => fails
  | holds, holds => holds
  | _, _ => unknown

def or : Truth → Truth → Truth
  | holds, _ => holds
  | _, holds => holds
  | fails, fails => fails
  | _, _ => unknown

@[simp]
theorem not_not (truth : Truth) : truth.not.not = truth := by
  cases truth <;> rfl

theorem not_and (left right : Truth) : (left.and right).not = left.not.or right.not := by
  cases left <;> cases right <;> rfl

theorem not_or (left right : Truth) : (left.or right).not = left.not.and right.not := by
  cases left <;> cases right <;> rfl

theorem and_eq_holds_iff (left right : Truth) :
    left.and right = holds ↔ left = holds ∧ right = holds := by
  cases left <;> cases right <;> simp [and]

theorem or_eq_holds_iff (left right : Truth) :
    left.or right = holds ↔ left = holds ∨ right = holds := by
  cases left <;> cases right <;> simp [or]

def bySign (_ : α) (operator : Operator) (_ : α) : Truth :=
  match operator with
  | .eq | .lt | .le | .isIn | .includes => holds
  | .like | .notLike => unknown
  | _ => fails

end Truth

/-- What a reader of a postfix list keeps on its stack. -/
inductive Reading (α : Type) where
  | operand (value : α)
  | truth (truth : Truth)

namespace Condition

variable (compare : α → Operator → α → Truth)

/-- The stack after one more entry, none where the entry lacks what it works on. -/
def read? (stack : List (Reading α)) : Condition α → Option (List (Reading α))
  | noop => some stack
  | unknown => some (.truth .unknown :: stack)
  | operand value => some (.operand value :: stack)
  | operator .not =>
      match stack with
      | .truth inner :: rest => some (.truth inner.not :: rest)
      | _ => none
  | operator .and =>
      match stack with
      | .truth right :: .truth left :: rest => some (.truth (left.and right) :: rest)
      | _ => none
  | operator .or =>
      match stack with
      | .truth right :: .truth left :: rest => some (.truth (left.or right) :: rest)
      | _ => none
  | operator op =>
      match stack with
      | .operand right :: .operand left :: rest =>
          some (.truth (compare left op right) :: rest)
      | _ => none

def readAll? (stack : List (Reading α)) : List (Condition α) → Option (List (Reading α))
  | [] => some stack
  | entry :: rest => (read? compare stack entry).bind (readAll? · rest)

/-- The truth of a list that leaves nothing but a truth value. -/
def evaluate? (conditions : List (Condition α)) : Option Truth :=
  match readAll? compare [] conditions with
  | some [.truth truth] => some truth
  | _ => none

/-- A filter lets rows pass where it is empty or holds. -/
def Passes (conditions : List (Condition α)) : Prop :=
  conditions = [] ∨ evaluate? compare conditions = some .holds

theorem readAll?_append (stack : List (Reading α)) (first second : List (Condition α)) :
    readAll? compare stack (first ++ second) =
      (readAll? compare stack first).bind (readAll? compare · second) := by
  induction first generalizing stack with
  | nil => rfl
  | cons entry rest induction =>
      simp only [List.cons_append, readAll?]
      cases read? compare stack entry with
      | none => rfl
      | some next => exact induction next

end Condition

/-!
Conditions as they are meant: comparisons under connectives. Each has one
postfix list, which reads back as one tree and evaluates to one truth value.
-/

/-- An operator between values. -/
structure Comparison where
  operator : Operator
  compares : operator.isLogical = false
  deriving DecidableEq

namespace Comparison

theorem ne_of_isLogical (comparison : Comparison) (operator : Operator)
    (logical : operator.isLogical = true) : comparison.operator ≠ operator := by
  intro equal
  have compares := comparison.compares
  rw [equal, logical] at compares
  cases compares

theorem negated?_isSome (comparison : Comparison) : comparison.operator.negated?.isSome := by
  obtain ⟨operator, compares⟩ := comparison
  cases operator <;> first | rfl | cases compares

def negated (comparison : Comparison) : Comparison where
  operator := comparison.operator.negated?.get comparison.negated?_isSome
  compares := by
    rw [Operator.isLogical_negated? (Option.some_get _).symm, comparison.compares]

theorem negated?_eq (comparison : Comparison) :
    comparison.operator.negated? = some comparison.negated.operator :=
  (Option.some_get _).symm

end Comparison

inductive Formula (α : Type) where
  | compared (left : α) (comparison : Comparison) (right : α)
  | not (inner : Formula α)
  | both (left right : Formula α)
  | either (left right : Formula α)

namespace Formula

def postfixList : Formula α → List (Condition α)
  | compared left comparison right =>
      [.operand left, .operand right, .operator comparison.operator]
  | not inner => inner.postfixList ++ [.operator .not]
  | both left right => left.postfixList ++ right.postfixList ++ [.operator .and]
  | either left right => left.postfixList ++ right.postfixList ++ [.operator .or]

def truth (compare : α → Operator → α → Truth) : Formula α → Truth
  | compared left comparison right => compare left comparison.operator right
  | not inner => (inner.truth compare).not
  | both left right => (left.truth compare).and (right.truth compare)
  | either left right => (left.truth compare).or (right.truth compare)

/-- The tree of a formula whose list begins at a position. -/
def tree (start : Nat) : Formula α → ConditionTree α
  | compared left comparison right =>
      .binary start (start + 2) comparison.operator (.leaf start start (.operand left))
        (.leaf (start + 1) (start + 1) (.operand right))
  | not inner => .not start (start + inner.postfixList.length) (inner.tree start)
  | both left right =>
      .binary start (start + left.postfixList.length + right.postfixList.length) .and
        (left.tree start) (right.tree (start + left.postfixList.length))
  | either left right =>
      .binary start (start + left.postfixList.length + right.postfixList.length) .or
        (left.tree start) (right.tree (start + left.postfixList.length))

theorem postfixList_length_pos (formula : Formula α) : 0 < formula.postfixList.length := by
  cases formula <;>
    simp only [postfixList, List.length_append, List.length_cons, List.length_nil] <;> omega

theorem postfixList_ne_nil (formula : Formula α) : formula.postfixList ≠ [] :=
  List.ne_nil_of_length_pos formula.postfixList_length_pos

@[simp]
theorem start_tree (start : Nat) (formula : Formula α) : (formula.tree start).start = start := by
  cases formula <;> rfl

theorem stop_tree (start : Nat) (formula : Formula α) :
    (formula.tree start).stop + 1 = start + formula.postfixList.length := by
  cases formula <;> simp [tree, ConditionTree.stop, postfixList, Nat.add_assoc]

section Evaluation

variable (compare : α → Operator → α → Truth)

theorem read?_comparison (stack : List (Reading α)) (left right : α) (comparison : Comparison) :
    Condition.read? compare (.operand right :: .operand left :: stack)
        (.operator comparison.operator) =
      some (.truth (compare left comparison.operator right) :: stack) := by
  obtain ⟨operator, compares⟩ := comparison
  cases operator <;> first | rfl | cases compares

/-- Reading the list of a formula leaves its truth on the stack. -/
theorem readAll?_postfixList (stack : List (Reading α)) (formula : Formula α) :
    Condition.readAll? compare stack formula.postfixList =
      some (.truth (formula.truth compare) :: stack) := by
  induction formula generalizing stack with
  | compared left comparison right =>
      simp [postfixList, Condition.readAll?, Condition.read?, truth]
      exact read?_comparison compare stack left right comparison
  | not inner induction =>
      simp [postfixList, Condition.readAll?_append, induction, Condition.readAll?,
        Condition.read?, truth]
  | both left right leftInduction rightInduction
  | either left right leftInduction rightInduction =>
      simp [postfixList, Condition.readAll?_append, leftInduction, rightInduction,
        Condition.readAll?, Condition.read?, truth]

@[simp]
theorem evaluate?_postfixList (formula : Formula α) :
    Condition.evaluate? compare formula.postfixList = some (formula.truth compare) := by
  rw [Condition.evaluate?, readAll?_postfixList]

theorem passes_postfixList_iff (formula : Formula α) :
    Condition.Passes compare formula.postfixList ↔ formula.truth compare = .holds := by
  simp [Condition.Passes, formula.postfixList_ne_nil]

end Evaluation

section Tree

open ConditionTree

@[simp]
theorem push_operand (stack : List (ConditionTree α)) (position : Nat) (value : α) :
    push stack position (.operand value) =
      .ok (.leaf position position (.operand value) :: stack) := rfl

theorem push_comparison (stack : List (ConditionTree α)) (position : Nat)
    (left right : ConditionTree α) (comparison : Comparison) :
    push (right :: left :: stack) position (.operator comparison.operator) =
      .ok (.binary left.start position comparison.operator left right :: stack) := by
  obtain ⟨operator, compares⟩ := comparison
  cases operator <;> first | rfl | cases compares

theorem pushAll_append (stack : List (ConditionTree α)) (position : Nat)
    (first second : List (Condition α)) :
    pushAll stack position (first ++ second) =
      (pushAll stack position first).bind
        (pushAll · (position + first.length) second) := by
  induction first generalizing stack position with
  | nil => rfl
  | cons entry rest induction =>
      simp only [List.cons_append, pushAll, List.length_cons]
      cases push stack position entry with
      | error fault => rfl
      | ok next =>
          simp only [induction]
          rw [Nat.add_assoc position 1, Nat.add_comm 1]

theorem pushAll_postfixList (stack : List (ConditionTree α)) (position : Nat)
    (formula : Formula α) :
    pushAll stack position formula.postfixList = .ok (formula.tree position :: stack) := by
  induction formula generalizing stack position with
  | compared left comparison right =>
      simp only [postfixList, pushAll, push_operand, push_comparison]
      rfl
  | not inner induction =>
      simp [postfixList, pushAll_append, induction, Except.bind, pushAll, push, tree]
  | both left right leftInduction rightInduction
  | either left right leftInduction rightInduction =>
      simp [postfixList, pushAll_append, leftInduction, rightInduction, Except.bind, pushAll,
        push, tree, Nat.add_assoc]

@[simp]
theorem ofPostfix_postfixList (formula : Formula α) :
    ofPostfix formula.postfixList = .ok (some (formula.tree 0)) := by
  rw [ofPostfix, pushAll_postfixList]

theorem toPostfix_tree (start : Nat) (formula : Formula α) :
    (formula.tree start).toPostfix = formula.postfixList := by
  induction formula generalizing start with
  | compared left comparison right => rfl
  | not inner induction => simp [tree, ConditionTree.toPostfix, postfixList, induction]
  | both left right leftInduction rightInduction
  | either left right leftInduction rightInduction =>
      simp [tree, ConditionTree.toPostfix, postfixList, leftInduction, rightInduction]

end Tree

end Formula

end ObjectQuery
