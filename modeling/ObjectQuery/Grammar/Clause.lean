import ObjectQuery.Grammar.Value
import ObjectQuery.Query.Statement

namespace ObjectQuery

/-! The clauses of a statement that hold neither conditions nor queries. -/

namespace Grammar

open ObjectQuery.Parser

def object : Parser (SourceObject Query) := do
  let path ← requiredName (.badClause .objects)
  return { path, aliasName := ← aliasName }

def objects : Parser (List (SourceObject Query)) :=
  separated (charAhead ',') object

def groupKey : Parser (Field Query) := do
  return .ofKind (.column (← requiredName (.badClause .groupBy)))

def groupKeys : Parser (List (Field Query)) :=
  separated (charAhead ',') groupKey

/-- One of two words after blanks: whether it is the first. Without a word the blanks stay. -/
def eitherWord (first second : Keyword) : Parser Bool := do
  if ← keywordAhead first then
    return true
  else
    let _ ← keywordAhead second
    return false

def orderKey : Parser (OrderKey Query) := do
  let path ← requiredName (.badClause .orderBy)
  let descending ← eitherWord .descending .ascending
  let nullsLast ← eitherWord .nullsLast .nullsFirst
  return { field := .ofKind (.column path), descending, nullsLast }

def orderKeys : Parser (List (OrderKey Query)) :=
  separated (charAhead ',') orderKey

def rowBound (clause : Clause) : Parser RowBound := do
  expectBlank (.badClause clause)
  match ← lexeme parameter with
  | some name => return .parameter name
  | none =>
      let start := (← get).position
      match ← lexeme numeral with
      | some (.int value) =>
          if 0 ≤ value then
            return .count value
          else
            failFrom (.badClause clause) start
      | _ => failFrom (.badClause clause) start

def addRowBound (bounds : RowBounds) : Parser RowBounds := do
  if ← pure bounds.offset.isNone <&&> keywordAhead .offset then
    return { bounds with offset := some (← rowBound .offset) }
  else if ← pure bounds.limit.isNone <&&> keywordAhead .limit then
    return { bounds with limit := some (← rowBound .limit) }
  else
    return bounds

/-- The rows to leave out and the rows to take, in either order. -/
def rowBounds : Parser RowBounds := do
  let first ← addRowBound {}
  if first.isEmpty then
    return first
  else
    addRowBound first

def partner (keyword : Keyword) : Parser Bool := do
  let start := (← get).position
  if ← charAhead ',' then
    skipBlank
    unless ← takeKeyword keyword do
      failFrom (.badClause .access) start
    return true
  else
    return false

def updateUses : Parser AccessClause := do
  if ← keywordAhead .tracking then
    return {
      update := true, updateTracking := true, updateViewstat := ← partner .viewstat }
  else if ← keywordAhead .viewstat then
    return {
      update := true, updateViewstat := true, updateTracking := ← partner .tracking }
  else
    return { update := true }

def access : Parser AccessClause := do
  let start := (← get).position
  expectBlank (.badClause .access)
  if ← takeKeyword .view then
    return { view := true, reference := ← partner .reference }
  else if ← takeKeyword .reference then
    return { reference := true, view := ← partner .view }
  else if ← takeKeyword .update then
    updateUses
  else
    failFrom (.badClause .access) start

end Grammar

end ObjectQuery
