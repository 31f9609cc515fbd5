import ObjectQuery.Proofs.Lexical.Blank
import ObjectQuery.Proofs.Step
import ObjectQuery.Proofs.Syntax.Take

namespace ObjectQuery

/-!
What the simplest parsers make of a cursor, whatever text lies ahead of it, and
which of them take up some of it.
-/

namespace Cursor

/-- A white space or the opening of a comment is seen ahead; past the end there is a NUL. -/
def OpensBlank (cursor : Cursor) : Prop :=
  isWhiteSpace (cursor.peek 0) = true ∨ (cursor.peek 0 = '-' ∧ cursor.peek 1 = '-') ∨
    (cursor.peek 0 = '/' ∧ cursor.peek 1 = '*')

theorem advance_of_split (cursor : Cursor) {before rest : List Char}
    (split : cursor.ahead = before ++ rest) :
    (cursor.advance before.length).position = cursor.position + before.length ∧
      (cursor.advance before.length).ahead = rest := by
  constructor
  · change cursor.position + (cursor.ahead.take before.length).length = _
    rw [split, List.take_left]
  · rw [ahead_advance, split, List.drop_left]

theorem head?_of_peek {chars : List Char} {char : Char} (seen : chars[0]?.getD '\x00' = char)
    (real : char ≠ '\x00') : ∃ rest, chars = char :: rest := by
  cases chars with
  | nil => exact absurd seen.symm real
  | cons first rest => exact ⟨rest, by rw [← seen]; rfl⟩

theorem not_opensBlank {cursor : Cursor} (stops : blankLength cursor.ahead = .ok 0) :
    ¬cursor.OpensBlank := by
  unfold OpensBlank peek
  cases shape : cursor.ahead with
  | nil => simp [show isWhiteSpace '\x00' = false by decide]
  | cons first others =>
      rw [shape] at stops
      simp only [List.getElem?_cons_zero, List.getElem?_cons_succ, Option.getD_some]
      rintro (white | ⟨rfl, second⟩ | ⟨rfl, second⟩)
      · have space : Blank.IsBlank others [first] := .space white
        exact Blank.shift_ne_ok Nat.one_pos _ (space.blankLength.symm.trans stops)
      · obtain ⟨rest, rfl⟩ := head?_of_peek second (by decide)
        rw [blankLength] at stops
        exact Blank.shift_ne_ok (Nat.succ_pos _) _ stops
      · obtain ⟨rest, rfl⟩ := head?_of_peek second (by decide)
        rw [blankLength] at stops
        cases closed : Blank.blockLength? rest with
        | some length =>
            rw [closed] at stops
            exact Blank.shift_ne_ok (Nat.succ_pos _) _ stops
        | none =>
            rw [closed] at stops
            cases stops

end Cursor

namespace Parser

theorem lexeme_run (look : List Char → Lexeme α) (cursor : Cursor) :
    lexeme look cursor = match look cursor.ahead with
      | .absent => .ok none cursor
      | .found value length => .ok (some value) (cursor.advance length)
      | .spoilt fault start stop => .error
          (.atCursor fault (cursor.position + start) (cursor.advance stop)) (cursor.advance stop) := by
  change (match look cursor.ahead with
    | .absent => (Pure.pure none : Parser (Option α))
    | .found value length => do
        advance length
        Pure.pure (some value)
    | .spoilt fault start stop => do
        advance stop
        failFrom fault (cursor.position + start)) cursor = _
  cases look cursor.ahead <;> rfl

theorem skipBlank_of_ok {cursor : Cursor} {count : Nat} (blank : blankLength cursor.ahead = .ok count) :
    skipBlank cursor = .ok ⟨⟩ (cursor.advance count) := by
  rw [skipBlank, run_get, blank]
  rfl

theorem skipBlank_of_error {cursor : Cursor} {start : Nat}
    (blank : blankLength cursor.ahead = .error start) :
    ∃ error after, skipBlank cursor = .error error after := by
  rw [skipBlank, run_get, blank]
  exact ⟨_, _, rfl⟩

section

variable {cursor : Cursor} {blanks rest : List Char}

theorem skipBlank_of_closed (longest : Blank.IsLongest cursor.ahead blanks rest)
    (stops : blankLength rest = .ok 0) :
    skipBlank cursor = .ok ⟨⟩ (cursor.advance blanks.length) := by
  have along := longest.areBlanks.blankLength
  rw [← longest.split, stops] at along
  exact skipBlank_of_ok along

theorem skipBlank_of_unclosed (longest : Blank.IsLongest cursor.ahead blanks rest)
    (unclosed : Blank.IsUnclosed rest) :
    skipBlank cursor = .error
      (.atCursor .openComment (cursor.position + blanks.length)
        (cursor.advance cursor.ahead.length))
      (cursor.advance cursor.ahead.length) := by
  have along := longest.areBlanks.blankLength
  rw [← longest.split, unclosed.blankLength] at along
  rw [skipBlank, run_get, along]
  rfl

/-- Where the reader stops, it stays. -/
theorem skipBlank_stays (stops : blankLength cursor.ahead = .ok 0) :
    skipBlank cursor = .ok ⟨⟩ cursor := by
  have again := skipBlank_of_ok stops
  rwa [Cursor.advance_zero] at again

end

/--
The longest beginning of what lies ahead that is made up of blanks is skipped, unless
a block comment follows it that is not closed. Behind it there is no blank, and
nothing more is skipped.
-/
theorem skipBlank_longest (cursor : Cursor) :
    ∃ blanks rest, Blank.IsLongest cursor.ahead blanks rest ∧
      (∀ after, skipBlank cursor = .ok ⟨⟩ after ↔
        ¬Blank.IsUnclosed rest ∧ after = cursor.advance blanks.length) ∧
      (∀ error after, skipBlank cursor = .error error after ↔
        Blank.IsUnclosed rest ∧ after = cursor.advance cursor.ahead.length ∧
          error = .atCursor .openComment (cursor.position + blanks.length) after) ∧
      ∀ after, skipBlank cursor = .ok ⟨⟩ after →
        after.position = cursor.position + blanks.length ∧ after.ahead = rest ∧
          ¬after.OpensBlank ∧ skipBlank after = .ok ⟨⟩ after := by
  obtain ⟨blanks, rest, longest, stops⟩ := Blank.exists_isLongest cursor.ahead
  refine ⟨blanks, rest, longest, ?_⟩
  rcases stops with stops | unclosed
  · have closed : ¬Blank.IsUnclosed rest := fun unclosed => by
      rw [unclosed.blankLength] at stops
      cases stops
    have run := skipBlank_of_closed longest stops
    obtain ⟨position, ahead⟩ := cursor.advance_of_split longest.split
    have still : blankLength (cursor.advance blanks.length).ahead = .ok 0 := ahead ▸ stops
    refine ⟨fun after => ?_, fun error after => ?_, fun after taken => ?_⟩
    · rw [run, EStateM.Result.ok.injEq, and_iff_right rfl, and_iff_right closed, eq_comm]
    · simp [run, closed]
    · rw [run] at taken
      cases taken
      exact ⟨position, ahead, Cursor.not_opensBlank still, skipBlank_stays still⟩
  · have run := skipBlank_of_unclosed longest unclosed
    refine ⟨fun after => ?_, fun error after => ⟨fun failed => ?_, ?_⟩, fun after taken => ?_⟩
    · simp [run, unclosed]
    · rw [run] at failed
      cases failed
      exact ⟨unclosed, rfl, rfl⟩
    · rintro ⟨_, rfl, rfl⟩
      exact run
    · rw [run] at taken
      cases taken

/-- A cursor that stays where it is stands before the end only where it did so. -/
theorem stays_iff (cursor : Cursor) (count : Nat) :
    ((cursor.advance count).position = cursor.position && !(cursor.advance count).atEnd) = true ↔
      count = 0 ∧ cursor.ahead ≠ [] := by
  simp only [Cursor.advance, Cursor.atEnd, Bool.and_eq_true, decide_eq_true_eq, Bool.not_eq_true',
    List.isEmpty_eq_false_iff, List.length_take, ne_eq, List.drop_eq_nil_iff,
    ← List.length_eq_zero_iff (l := cursor.ahead)]
  omega

theorem expectBlank_of_ok {cursor : Cursor} {count : Nat} {fault : SyntaxFault}
    (blank : blankLength cursor.ahead = .ok count) :
    expectBlank fault cursor =
      if count = 0 ∧ cursor.ahead ≠ [] then fail fault (cursor.advance count)
      else .ok ⟨⟩ (cursor.advance count) := by
  rw [expectBlank, run_get, run_bind (skipBlank_of_ok blank), run_get]
  simp only [stays_iff]
  split <;> rfl

theorem takeChar_run (char : Char) (cursor : Cursor) : takeChar char cursor =
    if cursor.ahead.head? = some char then .ok true (cursor.advance 1) else .ok false cursor := by
  rw [takeChar, run_bind (show isAhead char cursor = .ok _ cursor from rfl)]
  by_cases head : cursor.ahead.head? = some char <;> simp [head] <;> rfl

theorem takeKeyword_run (keyword : Keyword) (cursor : Cursor) : takeKeyword keyword cursor =
    (keyword.length? cursor.ahead).elim (.ok false cursor) (.ok true <| cursor.advance ·) := by
  rw [takeKeyword, run_get]
  cases keyword.length? cursor.ahead <;> rfl

/-- To see a character next and move over it is to take it. -/
theorem isAhead_bind (char : Char) (inside : Nat → Parser α) (outside : Parser α) :
    (isAhead char >>= fun answer =>
      if answer = true then
        MonadState.get >>= fun cursor => advance 1 >>= fun _ => inside cursor.position
      else outside) =
    MonadState.get >>= fun cursor => takeChar char >>= fun answer =>
      if answer = true then inside cursor.position else outside := by
  funext cursor
  rw [run_get, run_bind (show isAhead char cursor = .ok _ cursor from rfl)]
  by_cases head : cursor.ahead.head? = some char
  · rw [run_bind ((takeChar_run char cursor).trans (if_pos head))]
    simp only [head, beq_self_eq_true, if_true]
    rfl
  · rw [run_bind ((takeChar_run char cursor).trans (if_neg head))]
    simp [head]

/-- Where its value is one that shows it, the parser has taken up some text. -/
def Consumes (parser : Parser α) (telling : α → Prop) : Prop :=
  ∀ cursor, Step.Meets parser cursor fun value after =>
    telling value → after.ahead.length < cursor.ahead.length

theorem skipBlank_le (cursor : Cursor) :
    Step.Meets skipBlank cursor fun _ after => after.ahead.length ≤ cursor.ahead.length := by
  refine .of_runs fun _ after run => ?_
  cases blank : blankLength cursor.ahead with
  | ok count =>
      rw [skipBlank_of_ok blank] at run
      cases run
      rw [Cursor.ahead_advance, List.length_drop]
      exact Nat.sub_le _ _
  | error start =>
      obtain ⟨error, last, failed⟩ := skipBlank_of_error blank
      rw [failed] at run
      cases run

namespace Consumes

variable {α β : Type} {parser : Parser α} {telling : α → Prop}

theorem takeChar (char : Char) : Consumes (takeChar char) (· = true) := by
  intro cursor
  refine .of_runs fun value after run tells => ?_
  rw [takeChar_run] at run
  split at run
  · rename_i head
    cases run
    have some_ := List.length_pos_of_mem (List.mem_of_mem_head? head)
    rw [Cursor.ahead_advance, List.length_drop]
    omega
  · cases run
    cases tells

theorem expectChar (char : Char) (fault : SyntaxFault) :
    Consumes (expectChar char fault) fun _ => True := by
  intro cursor
  refine (takeChar char cursor).bind fun taken after fewer => .ite (fun yes => ?_) fun _ => ?_
  · exact .pure fun _ => fewer yes
  · exact .of_runs fun _ _ run => absurd run (by rintro ⟨⟩)

theorem takeKeyword {letter : Char} {word : List Char} {ends : Bool} :
    Consumes (takeKeyword ⟨[letter :: word], ends⟩) (· = true) := by
  intro cursor
  refine .of_runs fun value after run tells => ?_
  rw [takeKeyword_run] at run
  cases found : Keyword.length? ⟨[letter :: word], ends⟩ cursor.ahead with
  | none =>
      rw [found] at run
      cases run
      cases tells
  | some length =>
      rw [found] at run
      cases run
      obtain ⟨positive, some_⟩ := Keyword.length?_pos found
      have ahead := List.length_pos_of_ne_nil some_
      rw [Cursor.ahead_advance, List.length_drop]
      omega

/-- A step that takes up blanks too where it answers yes. -/
theorem beforeBlank {step : Parser Bool} (consumes : Consumes step (· = true)) :
    Consumes
      (do
        if ← step then
          skipBlank
          return true
        else
          return false)
      (· = true) := by
  intro cursor
  refine (consumes cursor).bind fun answer middle less => .ite (fun yes => ?_) fun _ => ?_
  · refine (skipBlank_le middle).bind fun _ after fewer => .pure fun _ => ?_
    exact Nat.lt_of_le_of_lt fewer (less yes)
  · exact .pure nofun

/-- A parser that goes on after blanks. -/
theorem afterBlank (consumes : Consumes parser telling) :
    Consumes (skipBlank >>= fun _ => parser) telling := by
  intro cursor
  refine (skipBlank_le cursor).bind fun _ middle fewer => ?_
  exact (consumes middle).mono fun value after less tells => Nat.lt_of_lt_of_le (less tells) fewer

theorem orStay {parser : Parser Bool} (consumes : Consumes parser (· = true)) :
    Consumes (orStay parser) (· = true) := by
  intro cursor
  refine .get_bind ((consumes cursor).bind fun answer after less => .ite (fun yes => ?_) fun _ => ?_)
  · exact .pure fun _ => less yes
  · exact .set_bind (.pure nofun)

theorem charAhead (char : Char) : Consumes (charAhead char) (· = true) :=
  orStay (takeChar char).afterBlank

theorem keywordAhead {letter : Char} {word : List Char} {ends : Bool} :
    Consumes (keywordAhead ⟨[letter :: word], ends⟩) (· = true) :=
  orStay takeKeyword.afterBlank

end Consumes

end Parser

end ObjectQuery
