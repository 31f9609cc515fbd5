namespace ObjectQuery

/-! The operators of conditions. -/

/-- Connectives and comparisons. -/
inductive Operator where
  | not
  | and
  | or
  | eq
  | notEq
  | lt
  | le
  | gt
  | ge
  | like
  | notLike
  | isIn
  | notIn
  | includes
  | excludes
  deriving DecidableEq, Repr

namespace Operator

def all : List Operator :=
  [not, and, or, eq, notEq, lt, le, gt, ge, like, notLike, isIn, notIn, includes, excludes]

theorem mem_all (operator : Operator) : operator ∈ all := by
  cases operator <;> decide

def name : Operator → String
  | not => "Not"
  | and => "And"
  | or => "Or"
  | eq => "Eq"
  | notEq => "NotEq"
  | lt => "Lt"
  | le => "Le"
  | gt => "Gt"
  | ge => "Ge"
  | like => "Like"
  | notLike => "NotLike"
  | isIn => "In"
  | notIn => "NotIn"
  | includes => "Includes"
  | excludes => "Excludes"

def ofName? (name : String) : Option Operator :=
  all.find? (·.name == name)

def keyword : Operator → String
  | not => "not"
  | and => "and"
  | or => "or"
  | eq => "="
  | notEq => "!="
  | lt => "<"
  | le => "<="
  | gt => ">"
  | ge => ">="
  | like => "like"
  | notLike => "notlike"
  | isIn => "in"
  | notIn => "notin"
  | includes => "includes"
  | excludes => "excludes"

def spelling : Operator → String
  | not => "NOT"
  | and => "AND"
  | or => "OR"
  | like => "LIKE"
  | notLike => "NOT LIKE"
  | isIn => "IN"
  | notIn => "NOT IN"
  | includes => "INCLUDES"
  | excludes => "EXCLUDES"
  | operator => operator.keyword

def arity : Operator → Nat
  | not => 1
  | _ => 2

def isLogical : Operator → Bool
  | not | and | or => true
  | _ => false

def negated? : Operator → Option Operator
  | not => none
  | and => some or
  | or => some and
  | eq => some notEq
  | notEq => some eq
  | lt => some ge
  | le => some gt
  | gt => some le
  | ge => some lt
  | like => some notLike
  | notLike => some like
  | isIn => some notIn
  | notIn => some isIn
  | includes => some excludes
  | excludes => some includes

/-- An operator and its negation take operands of the same kind. -/
theorem isLogical_negated? {operator other : Operator}
    (negated : operator.negated? = some other) : other.isLogical = operator.isLogical := by
  cases operator <;> cases negated <;> rfl

end Operator

end ObjectQuery
