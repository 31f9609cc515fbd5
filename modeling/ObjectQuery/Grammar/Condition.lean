import ObjectQuery.Grammar.Call

namespace ObjectQuery

/-!
Conditions. A negation binds its own term, a conjunction binds tighter than a
disjunction, and both group to the left.
-/

def comparisons : List (Keyword × Operator) :=
  [ (.notEqual, .notEq),
    (.unequal, .notEq),
    (.lessOrEqual, .le),
    (.greaterOrEqual, .ge),
    (.equal, .eq),
    (.less, .lt),
    (.greater, .gt),
    (.notLike, .notLike),
    (.notIn, .notIn),
    (.like, .like),
    (.isIn, .isIn),
    (.includes, .includes),
    (.excludes, .excludes) ]

def comparison (chars : List Char) : Lexeme Operator :=
  let found := comparisons.findSome? fun (keyword, operator) =>
    (keyword.length? chars).map (operator, ·)
  match found with
  | some (operator, length) => .found operator length
  | none => .absent

/-- The clauses that hold conditions. -/
inductive ConditionClause where
  | filter
  | having
  deriving DecidableEq, Repr

namespace ConditionClause

def clause : ConditionClause → Clause
  | filter => .filter
  | having => .having

end ConditionClause

namespace Condition

def joined (operator : Operator) : List (List (Condition α)) → List (Condition α)
  | [] => []
  | first :: rest => rest.foldl (fun left right => left ++ right ++ [.operator operator]) first

def negatedTimes (count : Nat) (conditions : List (Condition α)) : List (Condition α) :=
  conditions ++ List.replicate count (.operator .not)

end Condition

namespace Grammar

open ObjectQuery.Parser

def isSubqueryAhead : Parser Bool := do
  let cursor ← get
  match cursor.ahead with
  | '(' :: rest =>
      match blankLength rest with
      | .ok length => return (Keyword.select.length? (rest.drop length)).isSome
      | .error start =>
          throw (.atCursor .openComment (cursor.position + 1 + start)
            (cursor.advance cursor.ahead.length))
  | _ => return false

/-- The left side of a comparison. Conditions on groups compare calls only. -/
def leftOperand (clause : ConditionClause) : Parser (Field Query) := do
  match ← call with
  | some field => return field
  | none =>
      match clause with
      | .having => fail (.badComparison .having .left)
      | .filter =>
          match ← name with
          | some path => return .ofKind (.column path)
          | none => fail (.badComparison .filter .left)

/-- A name or a value list on the right side of a comparison. -/
def rightNameOrList (clause : ConditionClause) : Parser (Field Query) := do
  let path ← if clause = .filter then name else pure none
  match path with
  | some path => return .ofKind (.column path)
  | none =>
      if ← isAhead '(' then
        return .ofKind (.literal (← valueList))
      else
        fail (.badComparison clause.clause .right)

def rightOperand (subquery : Parser Query) (clause : ConditionClause) :
    Parser (Field Query) := do
  match ← lexeme listItem with
  | some item => return .ofListItem item
  | none =>
      if ← isSubqueryAhead then
        return .ofKind (.subquery (← subquery))
      else
        match ← call with
        | some field => return field
        | none => rightNameOrList clause

def comparisonTerm (subquery : Parser Query) (clause : ConditionClause) :
    Parser (List (Condition (Field Query))) := do
  if ← isReservedAhead then
    fail (.badClause clause.clause)
  let left ← leftOperand clause
  skipBlank
  match ← lexeme comparison with
  | none => fail (.badComparison clause.clause .operator)
  | some operator =>
      skipBlank
      let right ← rightOperand subquery clause
      return [.operand left, .operand right, .operator operator]

def groupTerm (conditions : Parser (List (Condition (Field Query))))
    (clause : ConditionClause) : Parser (List (Condition (Field Query))) := do
  let start := (← get).position
  advance 1
  enter
  let inner ← conditions
  skipBlank
  unless ← takeChar ')' do
    failFrom (.badClause clause.clause) start
  leave
  return inner

def negation : Parser Bool := do
  if ← takeKeyword .not then
    skipBlank
    return true
  else
    return false

/-- A comparison or conditions in brackets, after any number of negations. -/
def term (subquery : Parser Query) (conditions : Parser (List (Condition (Field Query))))
    (clause : ConditionClause) : Parser (List (Condition (Field Query))) := do
  skipBlank
  let negations ← count negation
  let inner ←
    if ← isAhead '(' then
      groupTerm conditions clause
    else
      comparisonTerm subquery clause
  return Condition.negatedTimes negations inner

/-- Conditions with at most `bound` brackets inside each other. -/
def conditionsWithin (subquery : Parser Query) (clause : ConditionClause) :
    Nat → Parser (List (Condition (Field Query)))
  | 0 => fail .nestedTooDeeply
  | bound + 1 => do
      let conjunction := do
        let terms ← separated (keywordAhead .and)
          (term subquery (conditionsWithin subquery clause bound) clause)
        return Condition.joined .and terms
      return Condition.joined .or (← separated (keywordAhead .or) conjunction)

def conditionsWith (subquery : Parser Query) (clause : ConditionClause) :
    Parser (List (Condition (Field Query))) := do
  conditionsWithin subquery clause ((← get).ahead.length + 1)

end Grammar

end ObjectQuery
