import ObjectQuery.Proofs.Lexical.Word
import ObjectQuery.Proofs.Step
import ObjectQuery.Syntax.Parser

namespace ObjectQuery

/-! What parsers return where they succeed, whatever text they read. -/

namespace Parser

abbrev Yields (parser : Parser α) (property : α → Prop) : Prop :=
  Step.Yields (fun _ => True) parser property

end Parser

namespace Step.Yields

variable {α β : Type} {invariant : Cursor → Prop} {property : α → Prop} {result : β → Prop}

theorem of_ok {parser : Parser α} (yields : parser.Yields property) {cursor rest : Cursor}
    {value : α} (read : parser cursor = .ok value rest) : property value :=
  (yields trivial read).1

theorem failFrom {fault : SyntaxFault} {start : Nat} :
    Step.Yields invariant (Parser.failFrom fault start) property :=
  .bind .get fun _ _ => .throw

theorem fail {fault : SyntaxFault} : Step.Yields invariant (Parser.fail fault) property :=
  .bind .get fun _ _ => .failFrom

theorem fail_bind {fault : SyntaxFault} {next : α → Parser β} :
    Step.Yields invariant (Parser.fail fault >>= next) result :=
  have never : Step.Yields invariant (Parser.fail fault) fun _ => False := .fail
  never.bind fun _ impossible => impossible.elim

theorem failFrom_bind {fault : SyntaxFault} {start : Nat} {next : α → Parser β} :
    Step.Yields invariant (Parser.failFrom fault start >>= next) result :=
  have never : Step.Yields invariant (Parser.failFrom fault start) fun _ => False := .failFrom
  never.bind fun _ impossible => impossible.elim

theorem lexeme {look : List Char → Lexeme α} {holds : Option α → Prop}
    (absent : holds none)
    (found : ∀ chars value length, look chars = .found value length → holds (some value)) :
    (Parser.lexeme look).Yields holds := by
  refine .after fun cursor => ?_
  cases looked : look cursor.ahead with
  | absent => exact .pure absent
  | found value length => exact .after fun _ => .pure (found _ _ _ looked)
  | spoilt fault start stop => exact .after fun _ => .failFrom

theorem separatedWithin {separator : Parser Bool} {item : Parser α}
    (separates : Step.Yields invariant separator fun _ => True)
    (items : Step.Yields invariant item property) (bound : Nat) :
    Step.Yields invariant (Parser.separatedWithin separator item bound) fun values =>
      values ≠ [] ∧ ∀ value ∈ values, property value := by
  induction bound with
  | zero => exact .fail
  | succ bound induction =>
      refine .bind items fun first holds => separates.bind fun more _ =>
        .ite (fun _ => ?_) fun _ => ?_
      · refine .bind induction fun rest later => .pure ⟨List.cons_ne_nil _ _, ?_⟩
        exact List.forall_mem_cons.2 ⟨holds, later.2⟩
      · exact .pure ⟨List.cons_ne_nil _ _, by simpa using holds⟩

/-- Items and separators that keep an invariant. -/
theorem separatedBy {separator : Parser Bool} {item : Parser α}
    (separates : Step.Yields invariant separator fun _ => True)
    (items : Step.Yields invariant item property) :
    Step.Yields invariant (Parser.separated separator item) fun values =>
      values ≠ [] ∧ ∀ value ∈ values, property value :=
  .bind .get fun _ _ => separatedWithin separates items _

theorem separated (separator : Parser Bool) {item : Parser α} (items : item.Yields property) :
    (Parser.separated separator item).Yields fun values =>
      values ≠ [] ∧ ∀ value ∈ values, property value :=
  separatedBy (fun _ _ _ _ _ => ⟨trivial, trivial⟩) items

end Step.Yields

/-! Parsers that leave the rest of a plain text plain. -/

/-- A text without comments and double quotes lies ahead. -/
def Cursor.IsPlain (cursor : Cursor) : Prop :=
  isPlain cursor.ahead = true

namespace Cursor.IsPlain

variable {cursor : Cursor}

theorem advance (plain : cursor.IsPlain) {count : Nat} (unquoted : '\'' ∉ cursor.ahead.take count) :
    (cursor.advance count).IsPlain :=
  Plain.isPlain_drop plain unquoted

end Cursor.IsPlain

theorem Step.Yields.of_meets {ε σ α : Type} {invariant : σ → Prop} {property : α → Prop}
    {step : EStateM ε σ α} (meets : ∀ ⦃before⦄, invariant before →
      Step.Meets step before fun value after => property value ∧ invariant after) :
    Step.Yields invariant step property :=
  fun _ _ _ held run => (meets held).of_ok run

namespace Parser

open Step

variable {α : Type} {cursor : Cursor} {property : α → Prop}

/-- From a plain text the parser makes a value with the property, and leaves a plain text. -/
abbrev Reads (parser : Parser α) (property : α → Prop) : Prop :=
  Step.Yields Cursor.IsPlain parser property

/-- The parser leaves a plain text plain, and the cursor where it was where it answers no. -/
def Offers (parser : Parser Bool) : Prop :=
  ∀ ⦃cursor : Cursor⦄, cursor.IsPlain →
    Meets parser cursor fun answer after => after.IsPlain ∧ (answer = false → after = cursor)

theorem Offers.reads {parser : Parser Bool} (offers : parser.Offers) :
    parser.Reads fun _ => True :=
  fun _ _ _ plain run => ⟨trivial, ((offers plain).of_ok run).1⟩

theorem meets_fail {fault : SyntaxFault} {holds : α → Cursor → Prop} :
    Meets (fail fault) cursor holds :=
  .of_runs fun _ _ run => absurd run (by rintro ⟨⟩)

theorem meets_failFrom {fault : SyntaxFault} {start : Nat} {holds : α → Cursor → Prop} :
    Meets (failFrom fault start) cursor holds :=
  .of_runs fun _ _ run => absurd run (by rintro ⟨⟩)

theorem meets_fail_bind {β : Type} {fault : SyntaxFault} {next : α → Parser β}
    {holds : β → Cursor → Prop} : Meets (fail fault >>= next) cursor holds :=
  .of_runs fun _ _ run => absurd run (by rintro ⟨⟩)

theorem meets_failFrom_bind {β : Type} {fault : SyntaxFault} {start : Nat} {next : α → Parser β}
    {holds : β → Cursor → Prop} : Meets (failFrom fault start >>= next) cursor holds :=
  .of_runs fun _ _ run => absurd run (by rintro ⟨⟩)

theorem meets_lexeme {look : List Char → Lexeme α} {holds : Option α → Cursor → Prop}
    (absent : look cursor.ahead = .absent → holds none cursor)
    (found : ∀ value length, look cursor.ahead = .found value length →
      holds (some value) (cursor.advance length)) :
    Meets (lexeme look) cursor holds := by
  refine .get_bind ?_
  cases looked : look cursor.ahead with
  | absent => exact .pure (absent looked)
  | found value length => exact .modify_bind (.pure (found value length looked))
  | spoilt fault start stop =>
      exact .modify_bind meets_failFrom

theorem lexeme_congr {look other : List Char → Lexeme α} (same : look cursor.ahead = other cursor.ahead) :
    lexeme look cursor = lexeme other cursor := by
  have look_at (next : Cursor → Parser (Option α)) :
      (MonadState.get >>= next) cursor = next cursor cursor := rfl
  rw [lexeme, lexeme, look_at, look_at, same]

theorem meets_skipBlank (plain : cursor.IsPlain) :
    Meets skipBlank cursor fun _ after => after.IsPlain ∧
      ∃ blanks, cursor.ahead = blanks ++ after.ahead ∧
        ∀ char ∈ blanks, isWhiteSpace char = true := by
  refine .get_bind ?_
  cases blank : blankLength cursor.ahead with
  | error start => exact .modify_bind meets_failFrom
  | ok length =>
      obtain ⟨blanks, rest, ahead, rfl, white, later⟩ := Plain.exists_blanks plain blank
      have moved : (cursor.advance blanks.length).ahead = rest := by
        rw [Cursor.ahead_advance, ahead, List.drop_left]
      refine .of_runs fun value after run => ?_
      cases run
      rw [Cursor.IsPlain, moved]
      exact ⟨later, blanks, ahead, white⟩

theorem skipBlank_reads : skipBlank.Reads fun _ => True :=
  fun _ _ _ plain run => ⟨trivial, ((meets_skipBlank plain).of_ok run).1⟩

theorem meets_isAhead (char : Char) :
    Meets (isAhead char) cursor fun answer after =>
      after = cursor ∧ answer = (cursor.ahead.head? == some char) :=
  .get_bind (.pure ⟨rfl, rfl⟩)

theorem isAhead_reads (char : Char) : (isAhead char).Reads fun _ => True := by
  intro before answer after plain run
  obtain ⟨rfl, -⟩ := (meets_isAhead char).of_ok run
  exact ⟨trivial, plain⟩

theorem meets_isReservedAhead :
    Meets isReservedAhead cursor fun answer after =>
      after = cursor ∧ answer = isReserved cursor.ahead :=
  .get_bind (.pure ⟨rfl, rfl⟩)

theorem takeChar_offers {char : Char} (unquoted : '\'' ≠ char) : (takeChar char).Offers := by
  intro cursor plain
  refine (meets_isAhead char).bind ?_
  rintro answer _ ⟨rfl, rfl⟩
  refine .ite (fun ahead => .modify_bind (.pure ⟨?_, by simp⟩)) fun _ => .pure ⟨plain, fun _ => rfl⟩
  refine plain.advance ?_
  obtain ⟨rest, shape⟩ := List.head?_eq_some_iff.1 (beq_iff_eq.1 ahead)
  simpa [shape] using unquoted

theorem takeKeyword_offers {keyword : Keyword} (lettered : keyword.isLettered = true) :
    (takeKeyword keyword).Offers := by
  intro cursor plain
  refine .get_bind ?_
  cases found : keyword.length? cursor.ahead with
  | none => exact .pure ⟨plain, fun _ => rfl⟩
  | some length =>
      refine .modify_bind (.pure ⟨?_, by simp⟩)
      exact plain.advance (Keyword.quote_not_mem lettered found)

theorem orStay_offers {parser : Parser Bool} (reads : parser.Reads fun _ => True) :
    (orStay parser).Offers := by
  intro cursor plain
  refine .get_bind ((reads.meets plain).bind fun answer after held => .ite (fun _ => ?_) fun _ => ?_)
  · exact .pure ⟨held.2, by simp⟩
  · exact .set_bind (.pure ⟨plain, fun _ => rfl⟩)

theorem charAhead_offers {char : Char} (unquoted : '\'' ≠ char) : (charAhead char).Offers :=
  orStay_offers (skipBlank_reads.bind fun _ _ => (takeChar_offers unquoted).reads)

theorem keywordAhead_offers {keyword : Keyword} (lettered : keyword.isLettered = true) :
    (keywordAhead keyword).Offers :=
  orStay_offers (skipBlank_reads.bind fun _ _ => (takeKeyword_offers lettered).reads)

theorem expectBlank_reads (fault : SyntaxFault) : (expectBlank fault).Reads fun _ => True :=
  .bind .get fun _ _ => skipBlank_reads.bind fun _ _ => .bind .get fun _ _ =>
    .ite (fun _ => .fail) fun _ => .pure trivial

theorem enter_reads : enter.Reads fun _ => True := by
  refine .bind .get fun cursor plain => ?_
  cases entered : cursor.enter? with
  | none => exact .fail
  | some inner =>
      refine .set ?_
      unfold Cursor.enter? at entered
      split at entered
      · cases entered
        exact plain
      · cases entered

theorem leave_reads : leave.Reads fun _ => True :=
  .modify fun _ plain => plain

theorem lexeme_reads {look : List Char → Lexeme α} {holds : Option α → Prop} (absent : holds none)
    (found : ∀ chars value length, look chars = .found value length → isPlain chars = true →
      holds (some value) ∧ isPlain (chars.drop length) = true) :
    (lexeme look).Reads holds := by
  intro cursor value after plain run
  have meets : Meets (lexeme look) cursor fun value after => holds value ∧ after.IsPlain :=
    meets_lexeme (fun _ => ⟨absent, plain⟩) fun value length read => found _ _ _ read plain
  exact meets.of_ok run

end Parser

end ObjectQuery
