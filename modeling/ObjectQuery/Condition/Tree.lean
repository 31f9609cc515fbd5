import ObjectQuery.Condition.Basic

namespace ObjectQuery

/-!
Conditions as trees. Every node keeps the span of the postfix list it was built
from; the last position of the span is that of its own entry.
-/

/-- What a leaf of a condition tree holds. -/
inductive ConditionLeaf (α : Type) where
  | unknown
  | operand (value : α)
  deriving DecidableEq, Repr

namespace ConditionLeaf

def entry : ConditionLeaf α → Condition α
  | unknown => .unknown
  | operand value => .operand value

end ConditionLeaf

/-- A condition tree over spans `start` to `stop` of a postfix list. -/
inductive ConditionTree (α : Type) where
  | leaf (start stop : Nat) (content : ConditionLeaf α)
  | not (start stop : Nat) (operand : ConditionTree α)
  | binary (start stop : Nat) (operator : Operator) (left right : ConditionTree α)
  deriving DecidableEq, Repr

/-- What is wrong with a postfix list. -/
inductive PostfixFault where
  | missingOperand (operator : Operator) (position : Nat)
  | looseOperands (count : Nat)
  deriving DecidableEq, Repr

namespace PostfixFault

def message : PostfixFault → String
  | missingOperand operator position =>
      "The operand for the '" ++ operator.keyword ++ "' operator is missing at " ++
        toString position
  | looseOperands count =>
      toString count ++ " condition operands are not combined by an operator"

end PostfixFault

namespace ConditionTree

def start : ConditionTree α → Nat
  | leaf start _ _ | not start _ _ | binary start _ _ _ _ => start

def stop : ConditionTree α → Nat
  | leaf _ stop _ | not _ stop _ | binary _ stop _ _ _ => stop

def operator? : ConditionTree α → Option Operator
  | leaf _ _ _ => none
  | not _ _ _ => some .not
  | binary _ _ operator _ _ => some operator

def toPostfix : ConditionTree α → List (Condition α)
  | leaf _ _ content => [content.entry]
  | not _ _ operand => operand.toPostfix ++ [.operator .not]
  | binary _ _ operator left right =>
      left.toPostfix ++ right.toPostfix ++ [.operator operator]

/-- The stack of trees after the entry at `position`. -/
def push (stack : List (ConditionTree α)) (position : Nat) :
    Condition α → Except PostfixFault (List (ConditionTree α))
  | .noop => .ok stack
  | .unknown => .ok (leaf position position .unknown :: stack)
  | .operand value => .ok (leaf position position (.operand value) :: stack)
  | .operator .not =>
      match stack with
      | operand :: rest => .ok (not operand.start position operand :: rest)
      | [] => .error (.missingOperand .not position)
  | .operator operator =>
      match stack with
      | right :: left :: rest =>
          .ok (binary left.start position operator left right :: rest)
      | _ => .error (.missingOperand operator position)

/-- The stack of trees after entries the first of which stands at `position`. -/
def pushAll (stack : List (ConditionTree α)) (position : Nat) :
    List (Condition α) → Except PostfixFault (List (ConditionTree α))
  | [] => .ok stack
  | entry :: rest =>
      match push stack position entry with
      | .ok stack => pushAll stack (position + 1) rest
      | .error fault => .error fault

/-- The tree of a postfix list, none for a list without entries that count. -/
def ofPostfix (conditions : List (Condition α)) :
    Except PostfixFault (Option (ConditionTree α)) :=
  match pushAll [] 0 conditions with
  | .error fault => .error fault
  | .ok [] => .ok none
  | .ok [tree] => .ok (some tree)
  | .ok stack => .error (.looseOperands stack.length)

end ConditionTree

/-! Negations moved inwards to the comparisons. -/

namespace ConditionTree

/--
The postfix list of a tree, or of its negation where `negate` holds, with no
negation above a comparison. The operands of comparisons are values and stay.
-/
def distributed (negate : Bool) : ConditionTree α → List (Condition α)
  | leaf _ _ content =>
      if negate then [content.entry, .operator .not] else [content.entry]
  | not _ _ operand => operand.distributed (!negate)
  | binary _ _ operator left right =>
      let inner := negate && operator.isLogical
      let operator := if negate then operator.negated?.getD operator else operator
      left.distributed inner ++ right.distributed inner ++ [.operator operator]

end ConditionTree

namespace Condition

def distribute (conditions : List (Condition α)) : Except PostfixFault (List (Condition α)) :=
  match ConditionTree.ofPostfix conditions with
  | .error fault => .error fault
  | .ok none => .ok []
  | .ok (some tree) => .ok (tree.distributed false)

end Condition

end ObjectQuery
