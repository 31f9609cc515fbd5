namespace ObjectQuery

/-! Places in a written document, known by what lies ahead and by the line. -/

/-- What is left of a document, and the line it begins on. -/
structure Place where
  ahead : List Char
  line : Nat
  deriving DecidableEq

namespace Place

def ofText (text : String) : Place :=
  ⟨text.toList, 1⟩

/-- The line after a character on `line`. -/
def lineAfter (line : Nat) (char : Char) : Nat :=
  if char = '\n' then line + 1 else line

def next (place : Place) : Place :=
  match place.ahead with
  | [] => place
  | char :: rest => ⟨rest, lineAfter place.line char⟩

/-- The line after the next character, where reading stops that does not expect it. -/
def reached (place : Place) : Nat :=
  place.next.line

def isSpace (char : Char) : Bool :=
  char == ' ' || char == '\n' || char == '\t' || char == '\r'

def skipSpace (place : Place) : Place :=
  after place.line place.ahead
where
  after (line : Nat) : List Char → Place
    | [] => ⟨[], line⟩
    | char :: rest =>
        if isSpace char then after (lineAfter line char) rest else ⟨char :: rest, line⟩

/-- The place `count` characters later, none of which ends a line. -/
def advance (place : Place) (count : Nat) : Place :=
  { place with ahead := place.ahead.drop count }

/-- The place after the given letters, or the line on which something else stands. -/
def word (place : Place) : List Char → Except Nat Place
  | [] => .ok place
  | letter :: rest =>
      if place.ahead.head? = some letter then
        word place.next rest
      else
        .error place.reached

end Place

end ObjectQuery
