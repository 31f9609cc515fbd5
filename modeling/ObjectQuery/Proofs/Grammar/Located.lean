import Mathlib.Data.List.DropRight
import ObjectQuery.Proofs.Grammar.Proceed

namespace ObjectQuery

/-!
Where syntax errors stand in their texts. Characters, bytes, lines and columns
tell the same place, and the lines that are shown lead up to it.
-/

namespace SourceText

theorem lines_eq_splitOn (source : List Char) : lines source = source.splitOn '\n' := by
  induction source with
  | nil => rfl
  | cons char rest induction =>
      rw [lines, List.splitOn, List.splitOnP_cons_eq_if_modifyHead, ← List.splitOn, ← induction]
      by_cases newline : char = '\n'
      · simp [newline]
      · cases shown : lines rest with
        | nil => exact absurd (induction.symm.trans shown) (List.splitOn_ne_nil _ _)
        | cons line others => simp [newline]

theorem length_lines (source : List Char) : (lines source).length = source.count '\n' + 1 := by
  induction source with
  | nil => rfl
  | cons char rest induction =>
      rw [lines]
      by_cases newline : char = '\n'
      · simp [newline, induction]
      · cases shown : lines rest with
        | nil => simp [shown] at induction
        | cons line others => simpa [newline, shown] using induction

/-- The column counts the characters after the last line break. -/
theorem exists_lastLine (before : List Char) : ∃ earlier last, before = earlier ++ last ∧
    '\n' ∉ last ∧ (earlier = [] ∨ earlier.getLast? = some '\n') ∧
      columnAfter before = 1 + last.length := by
  refine ⟨before.rdropWhile (· ≠ '\n'), before.rtakeWhile (· ≠ '\n'),
    List.rdropWhile_append_rtakeWhile.symm, fun broken => ?_, ?_, ?_⟩
  · simpa using List.mem_rtakeWhile_imp broken
  · refine (eq_or_ne _ []).imp_right fun some_ => ?_
    have last := List.rdropWhile_last_not _ before some_
    rw [List.getLast?_eq_some_getLast some_]
    simpa using last
  · rw [columnAfter, List.rtakeWhile, List.length_reverse, Nat.add_comm]

/-- A line of the text after its number, without the returns at its end. -/
def numbered (source : List Char) (number : Nat) : String :=
  padded 4 (toString number) ++ " | " ++
    String.ofList (((source.splitOn '\n').getD (number - 1) []).rdropWhile (· = '\r')) ++ "\n"

theorem snippet_eq {source : List Char} {line : Nat} (positive : 0 < line)
    (present : line ≤ (source.splitOn '\n').length) (column : Nat) :
    snippet source line column =
      String.join ((List.range' (max 1 (line - 3)) (line + 1 - max 1 (line - 3))).map
        (numbered source)) ++ "     | " ++ String.ofList (List.replicate (column - 1) ' ') ++ "^" := by
  rw [snippet, lines_eq_splitOn, show shownLines - 1 = 3 from rfl]
  congr 4
  refine List.ext_getElem ?_ fun index inside also => ?_
  · simp only [List.length_mapIdx, List.length_take, List.length_drop, List.length_map,
      List.length_range']
    omega
  · rw [List.length_mapIdx, List.length_take, List.length_drop] at inside
    have place : max 1 (line - 3) + index - 1 < (source.splitOn '\n').length := by omega
    have same : max 1 (line - 3) - 1 + index = max 1 (line - 3) + index - 1 := by omega
    simp [numbered, withoutReturns, List.rdropWhile, place, same]

end SourceText

theorem byteCount_eq_utf8ByteSize (chars : List Char) :
    byteCount chars = (String.ofList chars).utf8ByteSize := by
  induction chars with
  | nil => rfl
  | cons char rest induction =>
      rw [byteCount, induction, ← List.singleton_append, String.ofList_append,
        String.utf8ByteSize_append]
      simp

/--
A text that is refused at any limit is refused at a place in it. What is told of
the place is the same in characters, in bytes, and in lines and columns. The text
of the error reaches from its start up to the character that stopped the reading.
The line of that character is shown under up to three lines before it, and a mark
stands below the character.
-/
theorem located_of_ofText {text : String} {limit : Option Nat} {error : SyntaxError}
    (refused : Query.ofText text limit = .error error) :
    error.start ≤ error.stop ∧ error.stop ≤ text.toList.length ∧
    error.offset = (String.ofList (text.toList.take error.stop)).utf8ByteSize ∧
    error.line = 1 + (text.toList.take error.stop).count '\n' ∧
    (∃ earlier last, text.toList.take error.stop = earlier ++ last ∧ '\n' ∉ last ∧
      (earlier = [] ∨ earlier.getLast? = some '\n') ∧ error.column = 1 + last.length) ∧
    error.text = String.ofList
      ((text.toList.take (min (error.stop + 1) text.toList.length)).drop error.start) ∧
    error.line ≤ (text.toList.splitOn '\n').length ∧
    error.snippet = String.join
      ((List.range' (max 1 (error.line - 3)) (error.line + 1 - max 1 (error.line - 3))).map
        (SourceText.numbered text.toList)) ++
      "     | " ++ String.ofList (List.replicate (error.column - 1) ' ') ++ "^" := by
  have located : error.Located text.toList := by
    unfold Query.ofText at refused
    split at refused
    · cases refused
    · rename_i fault after run
      cases refused
      exact (Grammar.query_proceeds (.ofText text limit) (Nat.zero_le _)).of_error run
  obtain ⟨same, begun⟩ := located
  rename_i fault start cursor
  rw [← same]
  have inside := cursor.position_le
  have line : SourceText.lineAfter (cursor.source.take cursor.position) ≤
      (cursor.source.splitOn '\n').length := by
    rw [← SourceText.lines_eq_splitOn, SourceText.length_lines]
    exact Nat.succ_le_succ ((List.take_sublist _ _).count_le _)
  refine ⟨begun, inside, byteCount_eq_utf8ByteSize _, Nat.add_comm _ _,
    SourceText.exists_lastLine _, ?_, line, SourceText.snippet_eq (Nat.succ_pos _) line _⟩
  exact congrArg (fun chars => String.ofList (chars.drop start)) List.take_eq_take_min

/-- A text that goes on after its last line, which holds a character of two bytes. -/
def trailingMark : String :=
  "SELECT Id\nFROM Contact\nWHERE Name = 'é' ?"

theorem ofText_trailingMark :
    ∃ error, Query.ofText trailingMark (some 4) = .error error ∧ error.offset = 41 := by
  have refused : (match Query.ofText trailingMark (some 4) with
      | .ok _ => false
      | .error error => error.offset == 41) = true := by
    decide +kernel
  split at refused
  · cases refused
  · exact ⟨_, ‹_›, eq_of_beq refused⟩

theorem located_trailingMark :
    ∃ error, Query.ofText trailingMark (some 4) = .error error ∧
      (String.ofList (trailingMark.toList.take error.stop)).utf8ByteSize = 41 ∧
      error.line = 1 + (trailingMark.toList.take error.stop).count '\n' := by
  obtain ⟨error, refused, offset⟩ := ofText_trailingMark
  obtain ⟨_, _, bytes, line, _⟩ := located_of_ofText refused
  exact ⟨error, refused, bytes.symm.trans offset, line⟩

end ObjectQuery
