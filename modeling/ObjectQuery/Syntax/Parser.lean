import ObjectQuery.Lexical.Blank
import ObjectQuery.Lexical.Keyword
import ObjectQuery.Syntax.Error
import ObjectQuery.Syntax.Lexeme

namespace ObjectQuery

/-!
Reading with a cursor. A parser that fails leaves the cursor where it stopped.
-/

abbrev Parser := EStateM SyntaxError Cursor

namespace Parser

/-- Fails at the cursor, in a piece of text begun at `start`. -/
def failFrom (fault : SyntaxFault) (start : Nat) : Parser α := do
  throw (.atCursor fault start (← get))

def fail (fault : SyntaxFault) : Parser α := do
  failFrom fault (← get).position

/-- Moves over `count` characters. -/
def advance (count : Nat) : Parser Unit :=
  modify (·.advance count)

/-- Reads a piece of text; the cursor stays where there is none. -/
def lexeme (look : List Char → Lexeme α) : Parser (Option α) := do
  let cursor ← get
  match look cursor.ahead with
  | .absent => pure none
  | .found value length =>
      advance length
      pure (some value)
  | .spoilt fault start stop =>
      advance stop
      failFrom fault (cursor.position + start)

def skipBlank : Parser Unit := do
  let cursor ← get
  match blankLength cursor.ahead with
  | .ok length => advance length
  | .error start =>
      advance cursor.ahead.length
      failFrom .openComment (cursor.position + start)

/-- Skips white space and comments, of which there must be some before the end. -/
def expectBlank (fault : SyntaxFault) : Parser Unit := do
  let start := (← get).position
  skipBlank
  let cursor ← get
  if cursor.position = start && !cursor.atEnd then
    fail fault

/-- Whether `char` is the next character. -/
def isAhead (char : Char) : Parser Bool := do
  return (← get).ahead.head? == some char

/-- Takes `char` where it is the next character. -/
def takeChar (char : Char) : Parser Bool := do
  if ← isAhead char then
    advance 1
    return true
  else
    return false

/-- Takes `char`, which must be the next character. -/
def expectChar (char : Char) (fault : SyntaxFault) : Parser Unit := do
  unless ← takeChar char do
    fail fault

def takeKeyword (keyword : Keyword) : Parser Bool := do
  match keyword.length? (← get).ahead with
  | some length =>
      advance length
      return true
  | none => return false

def isReservedAhead : Parser Bool := do
  return isReserved (← get).ahead

def enter : Parser Unit := do
  match (← get).enter? with
  | some cursor => set cursor
  | none => fail .nestedTooDeeply

def leave : Parser Unit :=
  modify Cursor.leave

/-- Puts the cursor back to where it was where the parser answers no. -/
def orStay (parser : Parser Bool) : Parser Bool := do
  let cursor ← get
  if ← parser then
    return true
  else
    set cursor
    return false

/-- Takes a keyword after blanks; without the keyword the blanks stay. -/
def keywordAhead (keyword : Keyword) : Parser Bool :=
  orStay do
    skipBlank
    takeKeyword keyword

/-- Takes a character after blanks; without the character the blanks stay. -/
def charAhead (char : Char) : Parser Bool :=
  orStay do
    skipBlank
    takeChar char

/-- One or more items with separators between them, of which `bound` limits the number. -/
def separatedWithin (separator : Parser Bool) (item : Parser α) : Nat → Parser (List α)
  | 0 => fail .nestedTooDeeply
  | bound + 1 => do
      let first ← item
      if ← separator then
        return first :: (← separatedWithin separator item bound)
      else
        return [first]

/--
One or more items with separators between them. Each separator takes up some
text, so what lies ahead bounds their number.
-/
def separated (separator : Parser Bool) (item : Parser α) : Parser (List α) := do
  separatedWithin separator item ((← get).ahead.length + 1)

/-- How often a step answers yes in a row, `bound` times at most. -/
def countWithin (step : Parser Bool) : Nat → Parser Nat
  | 0 => return 0
  | bound + 1 => do
      if ← step then
        return (← countWithin step bound) + 1
      else
        return 0

def count (step : Parser Bool) : Parser Nat := do
  countWithin step (← get).ahead.length

end Parser

end ObjectQuery
