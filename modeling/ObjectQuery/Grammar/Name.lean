import ObjectQuery.Lexical.Quoted
import ObjectQuery.Query.Path
import ObjectQuery.Syntax.Parser

namespace ObjectQuery

/-! Dotted names and aliases. -/

/-- A segment of a name: an identifier or a quoted name. -/
def segment (chars : List Char) : Lexeme String :=
  quoted .symbol chars <|> identifier chars

namespace Grammar

open ObjectQuery.Parser

/-- A segment after a dot, in a name begun at `start`. -/
def laterSegment (start : Nat) : Parser String := do
  skipBlank
  match ← lexeme segment with
  | some segment => return segment
  | none => failFrom .missingSegment start

def name : Parser (Option Path) := do
  let start := (← get).position
  match ← lexeme segment with
  | none => return none
  | some first =>
      if ← charAhead '.' then
        return some (first :: (← separated (charAhead '.') (laterSegment start)))
      else
        return some [first]

/-- An alias: an identifier after blanks that opens no clause. -/
def aliasName : Parser (Option String) := do
  let cursor ← get
  skipBlank
  let ahead := (← get).ahead
  if isReserved ahead || !Identifier.isAhead ahead then
    set cursor
    return none
  else
    lexeme identifier

/-- A name that must stand here, after blanks, and must not open a clause. -/
def requiredName (fault : SyntaxFault) : Parser Path := do
  skipBlank
  if ← isReservedAhead then
    fail fault
  match ← name with
  | some path => return path
  | none => fail fault

end Grammar

end ObjectQuery
