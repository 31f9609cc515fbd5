import ObjectQuery.Condition.Operator

namespace ObjectQuery

/-! Conditions as postfix lists, over operands of any type. -/

/-- An entry of a postfix condition list. -/
inductive Condition (α : Type) where
  /-- A blanked entry. -/
  | noop
  /-- A condition that cannot be decided. -/
  | unknown
  | operand (value : α)
  | operator (operator : Operator)
  deriving DecidableEq, Repr

namespace Condition

def map (f : α → β) : Condition α → Condition β
  | noop => noop
  | unknown => unknown
  | operand value => operand (f value)
  | operator op => operator op

def operand? : Condition α → Option α
  | operand value => some value
  | _ => none

def isNoop : Condition α → Bool
  | noop => true
  | _ => false

def name : Condition α → String
  | noop => "Noop"
  | unknown => "Unknown"
  | operand _ => "FieldInfo"
  | operator op => op.name

def agrees (test : α → β → Bool) : Condition α → Condition β → Bool
  | noop, noop => true
  | unknown, unknown => true
  | operand left, operand right => test left right
  | operator left, operator right => left == right
  | _, _ => false

def render : Condition String → String
  | noop => "noop"
  | unknown => "unknown"
  | operand text => text
  | operator op => op.keyword

/-- The stack of texts after one more entry; a missing operand counts as empty. -/
def pushText (stack : List String) : Condition String → List String
  | noop => stack
  | unknown => "UNKNOWN" :: stack
  | operand text => text :: stack
  | operator .not => ("NOT (" ++ stack.headD "" ++ ")") :: stack.tail
  | operator op =>
      let right := stack.headD ""
      let left := stack.tail.headD ""
      let joined := left ++ " " ++ op.spelling ++ " " ++ right
      (if op.isLogical then "(" ++ joined ++ ")" else joined) :: stack.tail.tail

def infixText (conditions : List (Condition String)) : String :=
  " ".intercalate (conditions.foldl pushText []).reverse

end Condition

end ObjectQuery
