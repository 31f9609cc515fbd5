import ObjectQuery.Syntax.Lexeme
import ObjectQuery.Text.Alphanumeric

namespace ObjectQuery

/-! Words, and the plain identifiers made of ASCII letters, digits, `_` and `$`. -/

def isWordChar (char : Char) : Bool :=
  isAlphanumeric char || char == '_' || char == '$'

def isWordEnd (chars : List Char) : Bool :=
  !chars.head?.any isWordChar

namespace Identifier

def isStart (char : Char) : Bool :=
  char.isAlpha || char == '_' || char == '$'

def isPart (char : Char) : Bool :=
  char.isAlphanum || char == '_' || char == '$'

def isAhead (chars : List Char) : Bool :=
  chars.head?.any isStart

end Identifier

def identifier (chars : List Char) : Lexeme String :=
  if Identifier.isAhead chars then
    let name := chars.takeWhile Identifier.isPart
    if isWordEnd (chars.drop name.length) then
      .found (String.ofList name) name.length
    else
      .spoilt .badIdentifier 0 name.length
  else
    .absent

/-- A parameter: an identifier after a colon. -/
def parameter (chars : List Char) : Lexeme String :=
  match chars with
  | ':' :: rest => (identifier rest).shift 1
  | _ => .absent

end ObjectQuery
