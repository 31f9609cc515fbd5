import ObjectQuery.Proofs.Lexical.Scan

namespace ObjectQuery

/-!
Texts made up of blanks, said without the reader of blanks. The reader gets to the
end of the longest beginning of a text that is made up of them.
-/

namespace Blank

/-- The mark that closes a block comment. -/
def closingMark : List Char := ['*', '/']

/--
A blank before the rest of a text: a white space, a comment up to the end of its
line, or a comment up to the first mark that closes it.
-/
inductive IsBlank (rest : List Char) : List Char → Prop where
  | space {char : Char} (white : isWhiteSpace char = true) : IsBlank rest [char]
  | line {text : List Char} (unbroken : ∀ char ∈ text, isLineEnd char = false)
      (ends : ∀ char ∈ rest.head?, isLineEnd char = true) : IsBlank rest ('-' :: '-' :: text)
  | block {text : List Char} (unmarked : ¬closingMark <:+: text) :
      IsBlank rest ('/' :: '*' :: (text ++ closingMark))

/-- A text made up of blanks, before the rest. -/
inductive AreBlanks (rest : List Char) : List Char → Prop where
  | nil : AreBlanks rest []
  | cons {piece others : List Char} (first : IsBlank (others ++ rest) piece)
      (later : AreBlanks rest others) : AreBlanks rest (piece ++ others)

/-- A block comment comes next that is not closed. -/
def IsUnclosed (text : List Char) : Prop :=
  ∃ inside, text = '/' :: '*' :: inside ∧ ¬closingMark <:+: inside

/-- The longest beginning of a text that is made up of blanks, and what follows it. -/
structure IsLongest (text blanks rest : List Char) : Prop where
  split : text = blanks ++ rest
  areBlanks : AreBlanks rest blanks
  longest : ∀ other more, text = other ++ more → AreBlanks more other →
    other.length ≤ blanks.length

variable {text others rest blanks piece : List Char} {char : Char} {count : Nat}
  {outcome : Except Nat Nat}

theorem shift_zero (outcome : Except Nat Nat) : shift 0 outcome = outcome := by
  cases outcome <;> simp [shift]

theorem shift_shift (first second : Nat) (outcome : Except Nat Nat) :
    shift first (shift second outcome) = shift (first + second) outcome := by
  cases outcome <;> simp [shift, Nat.add_assoc]

theorem shift_ne_ok (positive : 0 < count) (outcome : Except Nat Nat) :
    shift count outcome ≠ .ok 0 := by
  cases outcome with
  | ok length => simp [shift, Nat.ne_of_gt positive]
  | error start => simp [shift]

theorem le_of_shift_eq {other : Except Nat Nat} {first second : Nat}
    (stops : outcome = .ok 0 ∨ outcome = .error 0)
    (same : shift first outcome = shift second other) : second ≤ first := by
  rcases stops with rfl | rfl <;> cases other <;> simp [shift] at same <;> omega

/-- The mark begins at the first character, or later. -/
theorem marked_cons (apart : ∀ more, char = '*' → others = '/' :: more → False) :
    closingMark <:+: char :: others ↔ closingMark <:+: others := by
  refine List.infix_cons_iff.trans (or_iff_right ?_)
  rintro ⟨more, same⟩
  obtain ⟨rfl, rest⟩ := List.cons.inj same
  exact apart more rfl rest.symm

theorem blockLength?_eq_none_iff : blockLength? text = none ↔ ¬closingMark <:+: text := by
  fun_induction blockLength? text with
  | case1 => simp [closingMark]
  | case2 others =>
      have marked : closingMark <:+: '*' :: '/' :: others := ⟨[], others, rfl⟩
      simp [marked]
  | case3 char others apart induction => rw [Option.map_eq_none_iff, induction, marked_cons apart]

theorem exists_of_blockLength? (closed : blockLength? text = some count) :
    ∃ inside after, text = inside ++ closingMark ++ after ∧ ¬closingMark <:+: inside ∧
      count = (inside ++ closingMark).length := by
  fun_induction blockLength? text generalizing count with
  | case1 => cases closed
  | case2 others =>
      cases closed
      exact ⟨[], others, rfl, by simp [closingMark], rfl⟩
  | case3 char others apart induction =>
      obtain ⟨fewer, later, rfl⟩ := Option.map_eq_some_iff.1 closed
      obtain ⟨inside, after, rfl, unmarked, rfl⟩ := induction later
      have apartInside (more : List Char) (star : char = '*') (slash : inside = '/' :: more) :
          False := apart _ star (by rw [slash]; rfl)
      exact ⟨char :: inside, after, rfl, (marked_cons apartInside).not.2 unmarked, rfl⟩

theorem blockLength?_append_closingMark (unmarked : ¬closingMark <:+: text) :
    blockLength? (text ++ closingMark) = some (text ++ closingMark).length := by
  induction text with
  | nil => rfl
  | cons char others induction =>
      have apart (more : List Char) (star : char = '*')
          (slash : others ++ closingMark = '/' :: more) : False := by
        cases others with
        | nil => cases slash
        | cons next others =>
            obtain ⟨rfl, _⟩ := List.cons.inj slash
            exact unmarked ⟨[], others, by rw [star]; rfl⟩
      have fewer : ¬closingMark <:+: others := fun marked => unmarked (List.infix_cons marked)
      rw [List.cons_append, blockLength?, induction fewer]
      · rfl
      · exact apart

theorem IsUnclosed.blankLength (unclosed : IsUnclosed text) :
    ObjectQuery.blankLength text = .error 0 := by
  obtain ⟨inside, rfl, unmarked⟩ := unclosed
  rw [ObjectQuery.blankLength]
  simp only [blockLength?_eq_none_iff.2 unmarked]

/-- The reader takes a blank and goes on behind it. -/
theorem IsBlank.blankLength (first : IsBlank rest piece) :
    ObjectQuery.blankLength (piece ++ rest) =
      shift piece.length (ObjectQuery.blankLength rest) := by
  cases first with
  | @space char white =>
      have unbarred : ¬Bars (char :: rest) := by
        intro bars
        cases bars <;> exact absurd white (by decide)
      exact (blankLength_mark unbarred).trans (if_pos white)
  | line unbroken ends => exact blankLength_comment (.line unbroken ends)
  | block unmarked =>
      exact blankLength_comment (.block (blockLength?_append_closingMark unmarked))

theorem AreBlanks.blankLength (areBlanks : AreBlanks rest blanks) :
    ObjectQuery.blankLength (blanks ++ rest) =
      shift blanks.length (ObjectQuery.blankLength rest) := by
  induction areBlanks with
  | nil => exact (shift_zero _).symm
  | cons first later induction =>
      rw [List.append_assoc, first.blankLength, induction, shift_shift, List.length_append]

/-- The text begins with blanks, behind which the reader stops or meets an open comment. -/
def Parts (text : List Char) : Prop :=
  ∃ blanks rest, text = blanks ++ rest ∧ AreBlanks rest blanks ∧
    (blankLength rest = .ok 0 ∨ IsUnclosed rest)

theorem Parts.stops (stops : blankLength text = .ok 0 ∨ IsUnclosed text) : Parts text :=
  ⟨[], text, rfl, .nil, stops⟩

theorem Parts.cons (first : IsBlank others piece) (parts : Parts others) :
    Parts (piece ++ others) := by
  obtain ⟨blanks, rest, rfl, areBlanks, stops⟩ := parts
  exact ⟨piece ++ blanks, rest, (List.append_assoc ..).symm, .cons first areBlanks, stops⟩

theorem isBlank_line (text : List Char) :
    IsBlank (text.dropWhile (!isLineEnd ·)) ('-' :: '-' :: text.takeWhile (!isLineEnd ·)) := by
  refine .line (fun char member => ?_) fun char head => ?_
  · simpa using List.mem_takeWhile_imp member
  · have stops := List.head?_dropWhile_not (!isLineEnd ·) text
    rw [Option.mem_def] at head
    rw [head] at stops
    simpa using stops

theorem drop_lineLength (text : List Char) :
    text.drop (lineLength text) = text.dropWhile (!isLineEnd ·) := by
  have whole := List.takeWhile_append_dropWhile (p := (!isLineEnd ·)) (l := text)
  rw [lineLength]
  nth_rewrite 2 [← whole]
  exact List.drop_left

/-- Each text begins with blanks, as far as the reader gets. -/
theorem parts (text : List Char) : Parts text := by
  fun_induction blankLength text with
  | case1 => exact .stops (.inl (blankLength.eq_def []))
  | case2 rest length induction =>
      rw [drop_lineLength] at induction
      have whole := induction.cons (isBlank_line rest)
      rwa [List.cons_append, List.cons_append, List.takeWhile_append_dropWhile] at whole
  | case3 rest length closed induction =>
      obtain ⟨inside, after, rfl, unmarked, rfl⟩ := exists_of_blockLength? closed
      rw [List.drop_left] at induction
      exact induction.cons (.block unmarked)
  | case4 rest unclosed =>
      exact .stops (.inr ⟨rest, rfl, blockLength?_eq_none_iff.1 unclosed⟩)
  | case5 char rest line block white induction => exact induction.cons (.space white)
  | case6 char rest line block solid =>
      have stays : blankLength (char :: rest) = .ok 0 := by
        rw [blankLength, if_neg solid]
        · exact line
        · exact block
      exact .stops (.inl stays)

theorem exists_isLongest (text : List Char) :
    ∃ blanks rest, IsLongest text blanks rest ∧
      (blankLength rest = .ok 0 ∨ IsUnclosed rest) := by
  obtain ⟨blanks, rest, rfl, areBlanks, stops⟩ := parts text
  refine ⟨blanks, rest, ⟨rfl, areBlanks, fun other more same also => ?_⟩, stops⟩
  -- The reader goes on behind either beginning, but it stops behind the first.
  have along := areBlanks.blankLength
  rw [same, also.blankLength] at along
  exact le_of_shift_eq (stops.imp_right IsUnclosed.blankLength) along.symm

/-- The mark that closes a block comment shares no character with the one that opens it. -/
example : blankLength "/*/**/--*/\n x".toList = .ok 12 := by
  decide +kernel

end Blank

end ObjectQuery
