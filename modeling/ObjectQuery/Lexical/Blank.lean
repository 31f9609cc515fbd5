import ObjectQuery.Text.Character

namespace ObjectQuery

/-!
Blanks: white space, comments from `--` to the end of the line, and comments
from `/*` to `*/`.
-/

namespace Blank

def isLineEnd (char : Char) : Bool :=
  char == '\r' || char == '\n'

def lineLength (chars : List Char) : Nat :=
  (chars.takeWhile (!isLineEnd ·)).length

/-- The length of a block comment after its opening, its closing included. -/
def blockLength? : List Char → Option Nat
  | [] => none
  | '*' :: '/' :: _ => some 2
  | _ :: rest => (blockLength? rest).map (· + 1)

/-- A length counted from `count` characters earlier. -/
def shift (count : Nat) : Except Nat Nat → Except Nat Nat
  | .ok length => .ok (count + length)
  | .error start => .error (count + start)

end Blank

/--
The length of the longest run of blanks at the head of a text, or the place of
a block comment that does not end.
-/
def blankLength (chars : List Char) : Except Nat Nat :=
  match chars with
  | [] => .ok 0
  | '-' :: '-' :: rest =>
      let length := Blank.lineLength rest
      Blank.shift (length + 2) (blankLength (rest.drop length))
  | '/' :: '*' :: rest =>
      match Blank.blockLength? rest with
      | some length => Blank.shift (length + 2) (blankLength (rest.drop length))
      | none => .error 0
  | char :: rest =>
      if isWhiteSpace char then
        Blank.shift 1 (blankLength rest)
      else
        .ok 0
termination_by chars.length
decreasing_by
  all_goals simp only [List.length_cons, List.length_drop]
  all_goals omega

end ObjectQuery
