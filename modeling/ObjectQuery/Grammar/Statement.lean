import ObjectQuery.Grammar.Clause
import ObjectQuery.Grammar.Condition

namespace ObjectQuery

/-! Statements, from the keyword of the first clause to the end. -/

namespace Grammar

open ObjectQuery.Parser

def selectItemWith (subquery : Parser Query) : Parser (Field Query) := do
  skipBlank
  if ← isReservedAhead then
    fail .badSelectItem
  let field ←
    if ← isSubqueryAhead then
      pure (.ofKind (.subquery (← subquery)))
    else
      match ← call with
      | some field => pure field
      | none =>
          match ← name with
          | some path => pure (.ofKind (.column path))
          | none => fail .badSelectItem
  return { field with aliasName := ← aliasName }

def selectItemsWith (subquery : Parser Query) : Parser (List (Field Query)) :=
  separated (charAhead ',') (selectItemWith subquery)

def conditionClause (subquery : Parser Query) (clause : ConditionClause) :
    Parser (List (Condition (Field Query))) := do
  unless ← isAhead '(' do
    expectBlank (.badClause clause.clause)
  conditionsWith subquery clause

/-- What follows a keyword, or a value that stands for its absence. -/
def clauseOr (keyword : Keyword) (absent : α) (content : Parser α) : Parser α := do
  if ← keywordAhead keyword then
    content
  else
    return absent

def statementWith (subquery : Parser Query) : Parser (Statement Query) := do
  unless ← takeKeyword .select do
    fail .missingSelect
  expectBlank .badSelectItem
  let fields ← selectItemsWith subquery
  unless ← keywordAhead .objects do
    fail .missingObjects
  let objects ← objects
  let filter ← clauseOr .filter [] (conditionClause subquery .filter)
  let groupBy ← clauseOr .groupBy [] groupKeys
  let having ← clauseOr .having [] (conditionClause subquery .having)
  let orderBy ← clauseOr .orderBy [] orderKeys
  let bounds ← rowBounds
  let access ← clauseOr .access {} access
  return {
    fields, objects, filter, groupBy, having, orderBy, bounds, access
    isAggregation := !groupBy.isEmpty }

/-- A query in brackets, with at most `bound` queries inside each other. -/
def subqueryWithin : Nat → Parser Query
  | 0 => fail .nestedTooDeeply
  | bound + 1 => do
      expectChar '(' .missingOpening
      enter
      skipBlank
      let statement ← statementWith (subqueryWithin bound)
      skipBlank
      unless ← takeChar ')' do
        fail .trailingText
      leave
      return ⟨statement⟩

def subquery : Parser Query := do
  subqueryWithin ((← get).ahead.length + 1)

def selectItem : Parser (Field Query) :=
  selectItemWith subquery

def selectItems : Parser (List (Field Query)) :=
  selectItemsWith subquery

def conditions (clause : ConditionClause) : Parser (List (Condition (Field Query))) :=
  conditionsWith subquery clause

def statement : Parser (Statement Query) :=
  statementWith subquery

def query : Parser Query := do
  skipBlank
  let statement ← statement
  skipBlank
  unless (← get).atEnd do
    fail .trailingText
  return ⟨statement⟩

end Grammar

namespace Query

/-- The query that a text spells, with at most `limit` brackets open at once. -/
def ofText (text : String) (limit : Option Nat := some Cursor.defaultLimit) :
    Except SyntaxError Query :=
  match Grammar.query (.ofText text limit) with
  | .ok query _ => .ok query
  | .error error _ => .error error

end Query

end ObjectQuery
