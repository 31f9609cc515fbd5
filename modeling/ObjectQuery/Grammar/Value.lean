import ObjectQuery.Grammar.Name
import ObjectQuery.Query.Literal

namespace ObjectQuery

/-! Values and value lists. -/

namespace Moment

def literal : Moment → Literal
  | date instant => .date instant
  | dateTime instant => .dateTime instant
  | time instant => .time instant

end Moment

namespace Number

def literal : Number → Literal
  | int value => .int value
  | float value => .float value

end Number

def keywordValue (keyword : Keyword) (value : α) (chars : List Char) : Lexeme α :=
  match keyword.length? chars with
  | some length => .found value length
  | none => .absent

/-- A moment, a number, a text, a truth value, null, a parameter or a relative date. -/
def listItem (chars : List Char) : Lexeme ListItem :=
  (moment chars).map (fun moment => .literal moment.literal) <|>
  (numeral chars).map (fun number => .literal number.literal) <|>
  (quoted .value chars).map (fun text => .literal (.text text)) <|>
  keywordValue .trueValue (.literal (.bool true)) chars <|>
  keywordValue .falseValue (.literal (.bool false)) chars <|>
  keywordValue .null (.literal .null) chars <|>
  (parameter chars).map .parameter <|>
  (relativeDate chars).map .relativeDate

namespace Grammar

open ObjectQuery.Parser

def requiredQuoted (style : Quoted.Style) : Parser String := do
  match ← lexeme (quoted style) with
  | some text => return text
  | none => fail .missingQuote

def requiredParameter : Parser String := do
  match ← lexeme parameter with
  | some name => return name
  | none => fail .badParameter

/-- A value in a list begun at `start`. -/
def requiredListItem (start : Nat) : Parser ListItem := do
  skipBlank
  match ← lexeme listItem with
  | some item => return item
  | none => failFrom .missingListItem start

def valueList : Parser Literal := do
  let start := (← get).position
  expectChar '(' .missingOpening
  enter
  let items ← separated (charAhead ',') (requiredListItem start)
  skipBlank
  unless ← takeChar ')' do
    failFrom .missingClosing start
  leave
  return .list items

end Grammar

end ObjectQuery
