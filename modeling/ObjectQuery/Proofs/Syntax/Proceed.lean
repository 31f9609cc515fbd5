import ObjectQuery.Proofs.Lexical.Move
import ObjectQuery.Proofs.Syntax.Consume
import ObjectQuery.Proofs.Syntax.Keep

namespace ObjectQuery

/-!
How parsers proceed through a text. They stay in it, do not go back, and close as
many brackets as they say; where they fail, they name a place of the text.
-/

/-- In the same text, no further back, and out of `closed` brackets. -/
structure Cursor.Reaches (closed : Nat) (cursor after : Cursor) : Prop where
  source : after.source = cursor.source
  depth : after.depth = cursor.depth - closed
  position : cursor.position ≤ after.position

namespace Cursor.Reaches

variable {closed : Nat} {cursor middle after : Cursor}

theorem refl (cursor : Cursor) : Reaches 0 cursor cursor :=
  ⟨rfl, rfl, Nat.le_refl _⟩

theorem trans (first : Reaches 0 cursor middle) (later : Reaches closed middle after) :
    Reaches closed cursor after where
  source := later.source.trans first.source
  depth := by rw [later.depth, first.depth, Nat.sub_zero]
  position := Nat.le_trans first.position later.position

theorem advance (cursor : Cursor) (count : Nat) : Reaches 0 cursor (cursor.advance count) :=
  ⟨rfl, rfl, cursor.position_le_advance count⟩

end Cursor.Reaches

theorem Cursor.position_lt_advance {cursor : Cursor} {count : Nat} (positive : 0 < count)
    (some_ : cursor.ahead ≠ []) : cursor.position < (cursor.advance count).position := by
  have ahead := List.length_pos_of_ne_nil some_
  have within := cursor.length_ahead
  rw [position_advance]
  omega

/-- Where something is found the cursor has moved, and where nothing is found it has stayed. -/
def Cursor.Offers (cursor : Cursor) (found : Option α) (after : Cursor) : Prop :=
  if found.isSome then cursor.position < after.position else after = cursor

/-- The error of a piece of the text that begins no later than reading stopped. -/
inductive SyntaxError.Located (source : List Char) : SyntaxError → Prop where
  | atCursor {fault : SyntaxFault} {start : Nat} {cursor : Cursor}
      (same : cursor.source = source) (begun : start ≤ cursor.position) :
      Located source (.atCursor fault start cursor)

namespace Parser

open Step

/--
From a cursor at `start` or later the parser goes on in the text, out of `closed`
brackets, or fails at a place of the text.
-/
def Proceeds (start closed : Nat) (parser : Parser α) : Prop :=
  ∀ cursor : Cursor, start ≤ cursor.position →
    Meets parser cursor (fun _ after => cursor.Reaches closed after) (·.Located cursor.source)

/-- The parser finds something, and moves, or nothing, and stays. -/
def Offered (parser : Parser (Option α)) : Prop :=
  ∀ cursor, Meets parser cursor cursor.Offers

namespace Proceeds

variable {α β : Type} {start closed : Nat} {parser : Parser α}

theorem pure {value : α} : Proceeds start 0 (Pure.pure value : Parser α) :=
  fun cursor _ => .pure (.refl cursor)

theorem of_le {earlier : Nat} (proceeds : Proceeds earlier closed parser) (le : earlier ≤ start) :
    Proceeds start closed parser :=
  fun cursor begun => proceeds cursor (Nat.le_trans le begun)

theorem anywhere (proceeds : Proceeds 0 closed parser) : Proceeds start closed parser :=
  proceeds.of_le (Nat.zero_le _)

/-- The parser goes on from where another has got to. -/
theorem onward (proceeds : Proceeds start closed parser) {cursor middle : Cursor}
    (begun : start ≤ cursor.position) (reaches : cursor.Reaches 0 middle) :
    Meets parser middle (fun _ after => cursor.Reaches closed after) (·.Located cursor.source) := by
  rw [← reaches.source]
  exact (proceeds middle (Nat.le_trans begun reaches.position)).mono fun _ _ => reaches.trans

/-- The parser goes on from there, whatever its errors are. -/
theorem reaches (proceeds : Proceeds start closed parser) {cursor : Cursor}
    (begun : start ≤ cursor.position) :
    Meets parser cursor fun _ after => cursor.Reaches closed after :=
  .of_runs fun _ _ run => (proceeds cursor begun).of_ok run

theorem bind {next : α → Parser β} (first : Proceeds start 0 parser)
    (later : ∀ value, Proceeds start closed (next value)) :
    Proceeds start closed (parser >>= next) :=
  fun cursor begun => (first cursor begun).bind fun value _ => (later value).onward begun

/-- What follows a look at the cursor may count on it not to be further on. -/
theorem get_bind {next : Cursor → Parser α}
    (rest : ∀ cursor : Cursor, start ≤ cursor.position →
      Proceeds cursor.position closed (next cursor)) :
    Proceeds start closed (MonadState.get >>= next) :=
  fun cursor begun => .get_bind (rest cursor begun cursor (Nat.le_refl _))

theorem ite {condition : Prop} [Decidable condition] {first second : Parser α}
    (yes : Proceeds start closed first) (no : Proceeds start closed second) :
    Proceeds start closed (if condition then first else second) :=
  fun cursor begun => .ite (fun _ => yes cursor begun) fun _ => no cursor begun

theorem failsFrom {earlier : Nat} {cursor : Cursor} {property : α → Cursor → Prop}
    (fault : SyntaxFault) (le : earlier ≤ cursor.position) :
    Meets (Parser.failFrom fault earlier) cursor property (·.Located cursor.source) :=
  .get_bind (.throw (.atCursor rfl le))

theorem fails {cursor : Cursor} {property : α → Cursor → Prop} (fault : SyntaxFault) :
    Meets (Parser.fail fault) cursor property (·.Located cursor.source) :=
  .get_bind (failsFrom fault (Nat.le_refl _))

theorem failFrom {earlier : Nat} (fault : SyntaxFault) (le : earlier ≤ start) :
    Proceeds start closed (failFrom fault earlier : Parser α) :=
  fun _ begun => failsFrom fault (Nat.le_trans le begun)

theorem fail (fault : SyntaxFault) : Proceeds start closed (fail fault : Parser α) :=
  fun _ _ => fails fault

theorem failFrom_bind {earlier : Nat} {fault : SyntaxFault} {next : α → Parser β}
    (le : earlier ≤ start) : Proceeds start closed (Parser.failFrom fault earlier >>= next) :=
  fun cursor begun =>
    have never : Meets (Parser.failFrom fault earlier : Parser α) cursor (fun _ _ => False) _ :=
      failsFrom fault (Nat.le_trans le begun)
    never.bind fun _ _ => False.elim

theorem fail_bind {fault : SyntaxFault} {next : α → Parser β} :
    Proceeds start closed (Parser.fail fault >>= next) :=
  fun cursor _ =>
    have never : Meets (Parser.fail fault : Parser α) cursor (fun _ _ => False) _ := fails fault
    never.bind fun _ _ => False.elim

theorem advance (count : Nat) : Proceeds start 0 (advance count) :=
  fun cursor _ => .modify_bind (.pure (.advance cursor count))

theorem enters (cursor : Cursor) :
    Meets enter cursor (fun _ after => after = { cursor with depth := cursor.depth + 1 })
      (·.Located cursor.source) := by
  refine .get_bind ?_
  cases entered : cursor.enter? with
  | none => exact fails _
  | some inner =>
      unfold Cursor.enter? at entered
      split at entered
      · cases entered
        exact rfl
      · cases entered

/-- A bracket that is entered has to be left. -/
theorem enter_bind {next : PUnit → Parser α} (rest : Proceeds start 1 (next ⟨⟩)) :
    Proceeds start 0 (enter >>= next) := by
  intro cursor begun
  refine (enters cursor).bind ?_
  rintro _ _ rfl
  refine (rest { cursor with depth := cursor.depth + 1 } begun).mono fun _ after reaches => ?_
  exact ⟨reaches.source, reaches.depth.trans (Nat.add_sub_cancel cursor.depth 1), reaches.position⟩

theorem leave_bind {next : PUnit → Parser α} (rest : Proceeds start 0 (next ⟨⟩)) :
    Proceeds start 1 (leave >>= next) := by
  intro cursor begun
  refine .modify_bind ((rest cursor.leave begun).mono fun _ after reaches => ?_)
  exact ⟨reaches.source, reaches.depth, reaches.position⟩

theorem lexeme {look : List Char → Lexeme α} (moves : Moves look) :
    Proceeds start 0 (lexeme look) := by
  intro cursor begun
  refine .get_bind ?_
  cases looked : look cursor.ahead with
  | absent => exact .pure (.refl cursor)
  | found value length => exact .modify_bind (.pure (.advance cursor length))
  | spoilt fault begin stop =>
      refine .modify_bind (.get_bind (.throw (.atCursor rfl ?_)))
      exact Nat.add_le_add_left (moves.spoilt looked) cursor.position

theorem skipBlank : Proceeds start 0 skipBlank := by
  intro cursor begun
  refine .get_bind ?_
  cases blank : blankLength cursor.ahead with
  | ok length => exact .modify_bind (.pure (.advance cursor length))
  | error begin =>
      refine .modify_bind (.get_bind (.throw (.atCursor rfl ?_)))
      have inside := start_lt_of_blankLength blank
      have ahead := cursor.length_ahead
      rw [Cursor.position_advance]
      omega

theorem expectBlank (fault : SyntaxFault) : Proceeds start 0 (expectBlank fault) :=
  .get_bind fun _ _ => skipBlank.bind fun _ => .get_bind fun _ _ => .ite (fail fault) pure

theorem isAhead (char : Char) : Proceeds start 0 (isAhead char) :=
  .get_bind fun _ _ => pure

theorem takeChar (char : Char) : Proceeds start 0 (takeChar char) :=
  (isAhead char).bind fun _ => .ite ((advance 1).bind fun _ => pure) pure

theorem expectChar (char : Char) (fault : SyntaxFault) : Proceeds start 0 (expectChar char fault) :=
  (takeChar char).bind fun _ => .ite pure (fail fault)

theorem takeKeyword (keyword : Keyword) : Proceeds start 0 (takeKeyword keyword) := by
  refine .get_bind fun cursor _ => ?_
  cases keyword.length? cursor.ahead with
  | some length => exact (advance length).bind fun _ => pure
  | none => exact pure

theorem isReservedAhead : Proceeds start 0 isReservedAhead :=
  .get_bind fun _ _ => pure

theorem orStay {parser : Parser Bool} (proceeds : Proceeds start 0 parser) :
    Proceeds start 0 (orStay parser) := by
  intro cursor begun
  refine .get_bind ((proceeds cursor begun).bind fun answer after reaches => ?_)
  exact .ite (fun _ => .pure reaches) fun _ => .set_bind (.pure (.refl cursor))

theorem keywordAhead (keyword : Keyword) : Proceeds start 0 (keywordAhead keyword) :=
  orStay (skipBlank.bind fun _ => takeKeyword keyword)

theorem charAhead (char : Char) : Proceeds start 0 (charAhead char) :=
  orStay (skipBlank.bind fun _ => takeChar char)

theorem separatedWithin {separator : Parser Bool} {item : Parser α}
    (separates : Proceeds start 0 separator) (items : Proceeds start 0 item) (bound : Nat) :
    Proceeds start 0 (separatedWithin separator item bound) := by
  induction bound with
  | zero => exact fail _
  | succ bound induction =>
      exact items.bind fun _ => separates.bind fun _ => ite (induction.bind fun _ => pure) pure

theorem separated {separator : Parser Bool} {item : Parser α}
    (separates : Proceeds start 0 separator) (items : Proceeds start 0 item) :
    Proceeds start 0 (separated separator item) :=
  get_bind fun _ begun => (separatedWithin separates items _).of_le begun

theorem countWithin {step : Parser Bool} (steps : Proceeds start 0 step) (bound : Nat) :
    Proceeds start 0 (countWithin step bound) := by
  induction bound with
  | zero => exact pure
  | succ bound induction =>
      exact steps.bind fun _ => ite (induction.bind fun _ => pure) pure

theorem count {step : Parser Bool} (steps : Proceeds start 0 step) :
    Proceeds start 0 (count step) :=
  get_bind fun _ begun => (countWithin steps _).of_le begun

end Proceeds

/-- A lexer is a parser that finds something or stays. -/
theorem offered_lexeme {look : List Char → Lexeme α} (moves : Moves look) :
    Offered (lexeme look) :=
  fun _ => meets_lexeme (fun _ => rfl) fun _ _ looked =>
    have found := moves.found looked
    Cursor.position_lt_advance found.1 found.2

end Parser

end ObjectQuery
