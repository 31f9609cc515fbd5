import ObjectQuery.Proofs.Grammar.Condition
import ObjectQuery.Proofs.Lexical.Blank
import ObjectQuery.Proofs.Lexical.Integer
import ObjectQuery.Proofs.Lexical.Separable

namespace ObjectQuery

/-!
How far lexers reach. What they find takes up some text, and what spoils a piece
of text is found no earlier than the piece begins.
-/

/-- A comment that does not end begins inside the text. -/
theorem start_lt_of_blankLength {chars : List Char} {start : Nat}
    (unended : blankLength chars = .error start) : start < chars.length := by
  obtain ⟨blanks, rest, longest, stops⟩ := Blank.exists_isLongest chars
  have along := longest.areBlanks.blankLength
  rw [← longest.split, unended] at along
  rcases stops with stops | unclosed
  · rw [stops] at along
    cases along
  · rw [unclosed.blankLength] at along
    cases along
    obtain ⟨inside, rfl, _⟩ := unclosed
    rw [longest.split, List.length_append]
    exact Nat.lt_add_of_pos_right (Nat.succ_pos _)

/-- The lexer finds some text, and what spoils a piece is not before the piece. -/
structure Moves (look : List Char → Lexeme α) : Prop where
  found : ∀ ⦃chars value count⦄, look chars = .found value count → 0 < count ∧ chars ≠ []
  spoilt : ∀ ⦃chars fault start stop⦄, look chars = .spoilt fault start stop →
    start ≤ (chars.take stop).length

namespace Moves

variable {look other : List Char → Lexeme α}

/-- A lexer that finds nothing in no text, and whose pieces begin where it looks. -/
theorem of_absent (absent : look [] = .absent)
    (found : ∀ ⦃chars value count⦄, look chars = .found value count → 0 < count)
    (spoilt : ∀ ⦃chars fault start stop⦄, look chars = .spoilt fault start stop → start = 0) :
    Moves look where
  found chars value count looked := by
    refine ⟨found looked, ?_⟩
    rintro rfl
    rw [absent] at looked
    cases looked
  spoilt chars fault start stop looked := by
    rw [spoilt looked]
    exact Nat.zero_le _

theorem map (moves : Moves look) (make : α → β) : Moves fun chars => (look chars).map make where
  found chars value count looked := by
    cases own : look chars <;> rw [own] at looked <;> cases looked
    exact moves.found own
  spoilt chars fault start stop looked := by
    cases own : look chars <;> rw [own] at looked <;> cases looked
    exact moves.spoilt own

theorem orElse (first : Moves look) (second : Moves other) :
    Moves fun chars => look chars <|> other chars where
  found chars value count looked := by
    cases own : look chars <;> rw [own] at looked
    · exact second.found looked
    · cases looked
      exact first.found own
    · cases looked
  spoilt chars fault start stop looked := by
    cases own : look chars <;> rw [own] at looked
    · exact second.spoilt looked
    · cases looked
    · cases looked
      exact first.spoilt own

end Moves

theorem moves_identifier : Moves identifier := by
  refine .of_absent rfl (fun chars name count found => ?_) (by grind [identifier])
  obtain ⟨isName, rest, rfl, rfl, _⟩ := exists_of_identifier found
  refine List.length_pos_of_ne_nil fun none => ?_
  have start := isName.start
  rw [none] at start
  cases start

theorem moves_parameter : Moves parameter where
  found chars name count looked := by
    obtain ⟨rest, length, rfl, _, rfl⟩ := exists_identifier_of_parameter looked
    exact ⟨Nat.succ_pos _, List.cons_ne_nil _ _⟩
  spoilt chars fault start stop looked := by
    unfold parameter at looked
    split at looked
    · rename_i rest
      cases own : identifier rest <;> rw [own] at looked <;> cases looked
      rename_i begun length
      have inside := moves_identifier.spoilt own
      rw [Nat.add_comm 1 length, List.take_succ_cons, List.length_cons, Nat.add_comm 1]
      exact Nat.succ_le_succ inside
    · cases looked

theorem moves_quoted (style : Quoted.Style) : Moves (quoted style) := by
  refine .of_absent rfl (fun chars text count found => ?_) fun chars fault start stop spoilt => ?_
  · cases chars <;> grind [quoted]
  · cases chars <;> grind [quoted]

theorem moves_segment : Moves segment :=
  (moves_quoted .symbol).orElse moves_identifier

/-- A keyword stands for a value where it has a letter. -/
theorem moves_keywordValue {letter : Char} {word : List Char} {ends : Bool} (value : α) :
    Moves (keywordValue ⟨[letter :: word], ends⟩ value) where
  found chars result count looked := by
    unfold keywordValue at looked
    split at looked <;> cases looked
    exact Keyword.length?_pos ‹_›
  spoilt chars fault start stop looked := by
    unfold keywordValue at looked
    split at looked <;> cases looked

theorem moves_relativeDate : Moves relativeDate := by
  refine .of_absent rfl (fun chars date count found => ?_) (by grind [relativeDate])
  have some_ {word : List Char} {entry : String × Bool}
      (known : RelativeDate.lookup? word = some entry) : 0 < word.length := by
    refine List.length_pos_of_ne_nil ?_
    rintro rfl
    rw [show RelativeDate.lookup? [] = none by decide] at known
    cases known
  grind [relativeDate]

namespace Numeral

variable {chars : List Char} {count : Nat}

theorem plain?_pos {number : Option Number} (found : plain? chars = some (number, count)) :
    0 < count := by
  simp only [plain?, Option.orElse_eq_some, Option.map_eq_some_iff] at found
  rcases found with based | ⟨-, ⟨⟨value, length⟩, fraction, same⟩ | ⟨-, integer⟩⟩
  · simp only [based?] at based
    split at based
    · obtain ⟨base, isBase, found⟩ := Option.bind_eq_some_iff.1 based
      grind
    · cases based
  · cases same
    simp only [fraction?] at fraction
    grind
  · simp only [integer?, List.isEmpty_iff] at integer
    split at integer
    · cases integer
    · rename_i some_
      cases integer
      exact Nat.add_pos_right _ (List.length_pos_of_ne_nil some_)

theorem special?_pos {value : Float} (found : special? chars = some (value, count)) : 0 < count := by
  have named {letter : Char} {word : List Char} {named : Float}
      (found : (Keyword.length? ⟨[letter :: word], true⟩ chars).map (named, ·) =
        some (value, count)) : 0 < count := by
    obtain ⟨length, spelled, same⟩ := Option.map_eq_some_iff.1 found
    cases same
    exact (Keyword.length?_pos spelled).1
  simp only [special?, Option.orElse_eq_some] at found
  rcases found with above | ⟨-, below | ⟨-, unsigned | ⟨-, none⟩⟩⟩
  · exact named above
  · exact named below
  · exact named unsigned
  · exact named none

end Numeral

theorem moves_numeral : Moves numeral := by
  refine .of_absent rfl (fun chars number count found => ?_) (by grind [numeral])
  unfold numeral at found
  split at found
  · rename_i special
    cases found
    exact Numeral.special?_pos special
  · grind [→ Numeral.plain?_pos]

theorem moves_moment : Moves moment := by
  refine .of_absent rfl (fun chars value count found => ?_) (by grind [moment])
  unfold moment at found
  split at found
  · cases found
  · rename_i taken rest read
    dsimp only at found
    split at found
    · rename_i ends
      obtain ⟨_, before, rfl, _⟩ := Moment.read?_yields read
      cases before with
      | nil =>
          -- Where nothing is taken, the digit that the moment begins with stands ahead.
          obtain ⟨digits, mark, others, same, some_, _, spelled⟩ :=
            Moment.exists_of_read? (by rw [read]; exact Option.some_ne_none _)
          obtain ⟨first, more, rfl⟩ := List.exists_cons_of_ne_nil some_
          have digit := Numeral.isWordChar_of_isOf (spelled first List.mem_cons_self)
          rw [List.nil_append] at same
          simp [same, isWordEnd, digit] at ends
      | cons first others =>
          split at found <;> cases found
          rw [List.length_append, Nat.add_sub_cancel]
          exact Nat.succ_pos _
    · cases found

theorem moves_listItem : Moves listItem := by
  have words : Moves fun chars => keywordValue .trueValue (ListItem.literal (.bool true)) chars <|>
      keywordValue .falseValue (.literal (.bool false)) chars <|>
      keywordValue .null (.literal .null) chars <|>
      (parameter chars).map .parameter <|> (relativeDate chars).map .relativeDate :=
    (moves_keywordValue _).orElse ((moves_keywordValue _).orElse ((moves_keywordValue _).orElse
      ((moves_parameter.map ListItem.parameter).orElse
        (moves_relativeDate.map ListItem.relativeDate))))
  exact (moves_moment.map _).orElse ((moves_numeral.map _).orElse
    (((moves_quoted .value).map _).orElse words))

theorem moves_comparison : Moves comparison where
  found chars operator count looked := by
    have letters : ∀ entry ∈ comparisons, entry.1.length? chars = some count →
        0 < count ∧ chars ≠ [] := by
      simp only [comparisons, List.forall_mem_cons]
      refine ⟨?_, ?_, ?_, ?_, ?_, ?_, ?_, ?_, ?_, ?_, ?_, ?_, ?_, List.forall_mem_nil _⟩
      all_goals exact Keyword.length?_pos
    obtain ⟨keyword, member, found⟩ := Grammar.exists_of_comparison looked
    exact letters _ member found
  spoilt chars fault start stop looked := by
    unfold comparison at looked
    dsimp only at looked
    split at looked <;> cases looked

end ObjectQuery
