import ObjectQuery.Text.LowerCase

namespace ObjectQuery

/-!
Dotted paths and their keys. A key stands for a path whatever the case of its
letters.
-/

abbrev Path := List String

namespace Path

def render (path : Path) : String :=
  ".".intercalate path

def key (path : Path) : String :=
  render (path.map lowerText)

/-- The key of the first `length` segments. -/
def leadingKey (path : Path) (length : Nat) : String :=
  key (path.take length)

/-- Whether the path begins with the segments of another, letter case aside. -/
def startsWith : Path → Path → Bool
  | _, [] => true
  | [], _ :: _ => false
  | segment :: rest, expected :: others =>
      lowerText segment == lowerText expected && startsWith rest others

theorem startsWith_iff (path beginning : Path) :
    startsWith path beginning = true ↔ beginning.map lowerText <+: path.map lowerText := by
  induction beginning generalizing path with
  | nil => simp [startsWith]
  | cons expected others induction =>
      cases path with
      | nil => simp [startsWith]
      | cons segment rest =>
          simp only [startsWith, Bool.and_eq_true, beq_iff_eq, induction, List.map_cons,
            List.cons_prefix_cons]
          rw [eq_comm]

def same (left right : Path) : Bool :=
  left.length == right.length && startsWith left right

theorem same_iff (left right : Path) :
    same left right = true ↔ left.map lowerText = right.map lowerText := by
  rw [same, Bool.and_eq_true, beq_iff_eq, startsWith_iff]
  constructor
  · rintro ⟨lengths, beginning⟩
    exact (beginning.eq_of_length (by simp [lengths])).symm
  · intro equal
    exact ⟨by simpa using congrArg List.length equal, equal ▸ List.prefix_rfl⟩

/-- Paths that are equal but for letter case have one key. -/
theorem key_eq_of_same {left right : Path} (same : same left right = true) :
    left.key = right.key :=
  congrArg render ((same_iff left right).1 same)

def parent (path : Path) : Path :=
  path.dropLast

end Path

end ObjectQuery
