import ObjectQuery.Syntax.Fault
import ObjectQuery.Text.Cursor

namespace ObjectQuery

/-!
A syntax error: a fault together with the place where reading stopped and the
lines of the text that lead up to it.
-/

namespace SourceText

def lines : List Char → List (List Char)
  | [] => [[]]
  | char :: rest =>
      if char = '\n' then
        [] :: lines rest
      else
        match lines rest with
        | [] => [[char]]
        | line :: others => (char :: line) :: others

/-- The line number reached after the given characters, counted from one. -/
def lineAfter (before : List Char) : Nat :=
  before.count '\n' + 1

def columnAfter (before : List Char) : Nat :=
  (before.reverse.takeWhile (· ≠ '\n')).length + 1

def withoutReturns (line : List Char) : List Char :=
  (line.reverse.dropWhile (· = '\r')).reverse

/-- `text` with spaces before it, up to `width` characters. -/
def padded (width : Nat) (text : String) : String :=
  String.ofList (List.replicate (width - text.length) ' ') ++ text

/-- Lines of the text shown for a fault, the faulty one included. -/
def shownLines : Nat := 4

/-- The faulty line under the lines before it, and a mark below the column. -/
def snippet (source : List Char) (line column : Nat) : String :=
  let first := max 1 (line - (shownLines - 1))
  let shown := ((lines source).drop (first - 1)).take (line + 1 - first)
  let numbered := shown.mapIdx fun index text =>
    padded 4 (toString (first + index)) ++ " | " ++ String.ofList (withoutReturns text) ++ "\n"
  String.join numbered ++ "     | " ++
    String.ofList (List.replicate (column - 1) ' ') ++ "^"

end SourceText

/-- A fault and its place. Positions count characters, `offset` counts bytes. -/
structure SyntaxError where
  fault : SyntaxFault
  text : String
  start : Nat
  stop : Nat
  offset : Nat
  line : Nat
  column : Nat
  snippet : String
  deriving DecidableEq, Repr

namespace SyntaxError

/-- The error that stops reading at the cursor, in a piece of text begun at `start`. -/
def atCursor (fault : SyntaxFault) (start : Nat) (cursor : Cursor) : SyntaxError :=
  let before := cursor.source.take cursor.position
  let line := SourceText.lineAfter before
  let column := SourceText.columnAfter before
  { fault
    text := String.ofList (cursor.slice start (cursor.position + 1))
    start
    stop := cursor.position
    offset := cursor.byteOffset cursor.position
    line
    column
    snippet := SourceText.snippet cursor.source line column }

/-- The error of a text that is refused before it is read. -/
def atStart (fault : SyntaxFault) (source : String) : SyntaxError where
  fault := fault
  text := ""
  start := 0
  stop := 0
  offset := 0
  line := 1
  column := 1
  snippet := SourceText.snippet source.toList 1 1

def message (error : SyntaxError) : String :=
  error.fault.message

/-- The error in full: its wording, its place and the lines around it. -/
def render (error : SyntaxError) : String :=
  "ParseError: " ++ error.message ++ "\n --> Line " ++ toString error.line ++ ", Col " ++
    toString error.column ++ "\n" ++ error.snippet

end SyntaxError

end ObjectQuery
