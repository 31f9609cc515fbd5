import ObjectQuery.Grammar.Value
import ObjectQuery.Query.Statement

namespace ObjectQuery

/-! Function calls. -/

namespace Grammar

open ObjectQuery.Parser

/-- An argument of a call: a call, a value or a name. -/
def argument (call : Parser (Option (Field Query))) : Parser (Field Query) := do
  match ← call with
  | some field => return field
  | none =>
      match ← lexeme listItem with
      | some item => return .ofListItem item
      | none =>
          match ← name with
          | some path => return .ofKind (.column path)
          | none => fail .badArgument

/-- Arguments after the opening bracket of a call begun at `start`, with the closing bracket. -/
def argumentsWith (call : Parser (Option (Field Query))) (start : Nat) :
    Parser (List (Field Query)) := do
  skipBlank
  if ← takeChar ')' then
    return []
  let arguments ← separated (charAhead ',') do
    skipBlank
    argument call
  skipBlank
  unless ← takeChar ')' do
    failFrom .missingClosing start
  return arguments

/-- A call with at most `bound` calls inside each other. -/
def callWithin : Nat → Parser (Option (Field Query))
  | 0 => fail .nestedTooDeeply
  | bound + 1 => do
      let cursor ← get
      match ← lexeme identifier with
      | none => return none
      | some name =>
          skipBlank
          if ← takeChar '(' then
            enter
            let arguments ← argumentsWith (callWithin bound) cursor.position
            leave
            return some (.ofKind (.call name arguments))
          else
            set cursor
            return none

/-- A call, where one begins here. Each call in it takes up some text. -/
def call : Parser (Option (Field Query)) := do
  callWithin ((← get).ahead.length + 1)

/-- The arguments of a call whose opening bracket has been read. -/
def arguments (start : Nat) : Parser (List (Field Query)) :=
  argumentsWith call start

end Grammar

end ObjectQuery
