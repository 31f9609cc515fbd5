namespace ObjectQuery

/-! Closed ranges of code points, the form in which character classes are tabulated. -/

namespace CodeRange

/-- Whether `code` lies in one of the ranges `(first, last)`. -/
def covers (ranges : List (Nat × Nat)) (code : Nat) : Bool :=
  ranges.any fun range => range.1 ≤ code && code ≤ range.2

end CodeRange

/-! The characters with the Unicode property White_Space. -/

namespace WhiteSpace

def ranges : List (Nat × Nat) :=
  [ (0x9, 0xD), (0x20, 0x20), (0x85, 0x85), (0xA0, 0xA0), (0x1680, 0x1680),
    (0x2000, 0x200A), (0x2028, 0x2029), (0x202F, 0x202F), (0x205F, 0x205F),
    (0x3000, 0x3000) ]

end WhiteSpace

def isWhiteSpace (char : Char) : Bool :=
  CodeRange.covers WhiteSpace.ranges char.toNat

/-! The length of texts in UTF-8. -/

def byteCount : List Char → Nat
  | [] => 0
  | char :: rest => char.utf8Size + byteCount rest

theorem byteCount_append (left right : List Char) :
    byteCount (left ++ right) = byteCount left + byteCount right := by
  induction left with
  | nil => simp [byteCount]
  | cons char rest induction =>
      simp only [List.cons_append, byteCount, induction]
      omega

end ObjectQuery
