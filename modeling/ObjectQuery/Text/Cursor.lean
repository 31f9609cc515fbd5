import ObjectQuery.Text.Character

namespace ObjectQuery

/-!
A place in a text. The cursor also counts the brackets it stands in and knows
how many it may enter.
-/

/-- A text, a position in it counted in characters, and what lies ahead of it. -/
structure Cursor where
  source : List Char
  position : Nat
  ahead : List Char
  depth : Nat
  limit : Option Nat
  position_le : position ≤ source.length
  ahead_eq : ahead = source.drop position

namespace Cursor

/-- Brackets that may be open at once where nothing else is asked for. -/
def defaultLimit : Nat := 64

def ofText (text : String) (limit : Option Nat) : Cursor where
  source := text.toList
  position := 0
  ahead := text.toList
  depth := 0
  limit := limit
  position_le := Nat.zero_le _
  ahead_eq := rfl

theorem length_ahead (cursor : Cursor) :
    cursor.ahead.length = cursor.source.length - cursor.position := by
  rw [cursor.ahead_eq, List.length_drop]

/-- Moves over `count` characters, or to the end where fewer are left. -/
def advance (cursor : Cursor) (count : Nat) : Cursor :=
  { cursor with
    position := cursor.position + (cursor.ahead.take count).length
    ahead := cursor.ahead.drop count
    position_le := by
      have ahead := cursor.length_ahead
      have bound := cursor.position_le
      rw [List.length_take]
      omega
    ahead_eq := by
      have ahead := cursor.length_ahead
      rw [List.length_take]
      rcases Nat.le_total count cursor.ahead.length with fits | short
      · rw [Nat.min_eq_left fits, cursor.ahead_eq, List.drop_drop]
      · rw [Nat.min_eq_right short, List.drop_eq_nil_of_le short, eq_comm,
          List.drop_eq_nil_of_le]
        omega }

/-- Moves to a position, or to the end where the text is shorter. -/
def moveTo (cursor : Cursor) (position : Nat) : Cursor :=
  { cursor with
    position := min position cursor.source.length
    ahead := cursor.source.drop position
    position_le := Nat.min_le_right _ _
    ahead_eq := by
      rcases Nat.le_total position cursor.source.length with fits | short
      · rw [Nat.min_eq_left fits]
      · rw [Nat.min_eq_right short, List.drop_eq_nil_of_le short, List.drop_length] }

/-- Moves over characters until they take up at least `bytes` bytes in UTF-8. -/
def advanceBytes (cursor : Cursor) (bytes : Nat) : Cursor :=
  cursor.advance (count cursor.ahead bytes)
where
  count : List Char → Nat → Nat
    | [], _ => 0
    | char :: rest, bytes =>
        if bytes = 0 then 0 else count rest (bytes - char.utf8Size) + 1

def atEnd (cursor : Cursor) : Bool :=
  cursor.ahead.isEmpty

/-- The character `count` places ahead, NUL past the end. -/
def peek (cursor : Cursor) (count : Nat) : Char :=
  cursor.ahead[count]?.getD '\x00'

/-- The characters from `start` up to `stop`, both cut to the text. -/
def slice (cursor : Cursor) (start stop : Nat) : List Char :=
  (cursor.source.take stop).drop start

/-- The length in UTF-8 of the first `position` characters. -/
def byteOffset (cursor : Cursor) (position : Nat) : Nat :=
  byteCount (cursor.source.take position)

def enter? (cursor : Cursor) : Option Cursor :=
  if cursor.limit.all (cursor.depth < ·) then
    some { cursor with depth := cursor.depth + 1 }
  else
    none

def leave (cursor : Cursor) : Cursor :=
  { cursor with depth := cursor.depth - 1 }

@[simp]
theorem ahead_advance (cursor : Cursor) (count : Nat) :
    (cursor.advance count).ahead = cursor.ahead.drop count := rfl

@[simp]
theorem source_advance (cursor : Cursor) (count : Nat) :
    (cursor.advance count).source = cursor.source := rfl

@[simp]
theorem depth_advance (cursor : Cursor) (count : Nat) :
    (cursor.advance count).depth = cursor.depth := rfl

theorem position_advance (cursor : Cursor) (count : Nat) :
    (cursor.advance count).position = min (cursor.position + count) cursor.source.length := by
  have ahead := cursor.length_ahead
  have bound := cursor.position_le
  simp only [advance, List.length_take]
  omega

theorem position_le_advance (cursor : Cursor) (count : Nat) :
    cursor.position ≤ (cursor.advance count).position :=
  Nat.le_add_right _ _

@[simp]
theorem advance_zero (cursor : Cursor) : cursor.advance 0 = cursor := by
  simp [advance]

theorem advance_advance (cursor : Cursor) (first second : Nat) :
    (cursor.advance first).advance second = cursor.advance (first + second) := by
  have ahead := cursor.length_ahead
  have positions : ((cursor.advance first).advance second).position =
      (cursor.advance (first + second)).position := by
    simp only [position_advance, source_advance]
    omega
  have rests : ((cursor.advance first).advance second).ahead =
      (cursor.advance (first + second)).ahead := by
    simp [List.drop_drop]
  simp only [advance] at positions rests ⊢
  simp only [positions, rests]

@[simp]
theorem ahead_leave (cursor : Cursor) : cursor.leave.ahead = cursor.ahead := rfl

end Cursor

end ObjectQuery
