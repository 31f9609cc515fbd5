import ObjectQuery.Plan.Share
import ObjectQuery.Query.Statement

namespace ObjectQuery

/-!
The filter that is left for the joined rows. What one object decides is blanked
in the postfix list, and the connectives that lost a side go with it.
-/

namespace Condition

/-- A list with the entries from `start` to `stop` blanked. -/
def blank (start stop : Nat) (conditions : List (Condition α)) : List (Condition α) :=
  conditions.mapIdx fun index condition =>
    if start ≤ index ∧ index ≤ stop then noop else condition

/--
A list without its blanks, and without the negations and conjunctions that lack
operands after `depth` of them; the depth is returned where another operator
lacks one.
-/
def closeUp (depth : Nat) : List (Condition α) → Except Nat (List (Condition α))
  | [] => .ok []
  | noop :: rest => closeUp depth rest
  | unknown :: rest => (closeUp (depth + 1) rest).map (unknown :: ·)
  | operand value :: rest => (closeUp (depth + 1) rest).map (operand value :: ·)
  | operator .not :: rest =>
      if depth = 0 then
        closeUp depth rest
      else
        (closeUp depth rest).map (operator .not :: ·)
  | operator op :: rest =>
      if 2 ≤ depth then
        (closeUp (depth - 1) rest).map (operator op :: ·)
      else if op = .and then
        closeUp depth rest
      else
        .error depth

end Condition

namespace ConditionTree

/-- The list with the conjuncts of the tree blanked that are decided as a whole. -/
def blankKnown (reads : α → Bool) (tree : ConditionTree α) (conditions : List (Condition α)) :
    List (Condition α) :=
  match tree with
  | leaf start stop _ | not start stop _ =>
      if tree.reach reads = .known then Condition.blank start stop conditions else conditions
  | binary start stop operator left right =>
      if tree.reach reads = .known then
        Condition.blank start stop conditions
      else if operator = .and then
        right.blankKnown reads (left.blankKnown reads conditions)
      else
        conditions

end ConditionTree

namespace Condition

/-- The filter left for the joined rows of objects that read the operands they know. -/
def residual (conditions : List (Condition α)) (tree : Option (ConditionTree α))
    (objects : List (α → Bool)) : Except Nat (List (Condition α)) :=
  match tree with
  | none => closeUp 0 conditions
  | some tree =>
      closeUp 0 (objects.foldl (fun left reads => tree.blankKnown reads left) conditions)

/-- The filter left for the joined rows of objects with the given paths. -/
def residualOf (conditions : List (Condition (Field Q))) (tree : Option (ConditionTree (Field Q)))
    (paths : List Path) : Except Nat (List (Condition (Field Q))) :=
  residual conditions tree (paths.map Field.isReadBy)

end Condition

end ObjectQuery
