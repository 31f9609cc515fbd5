import ObjectQuery.Proofs.Parallel
import ObjectQuery.Syntax.Parser

namespace ObjectQuery

/-!
Parsers under a higher limit on brackets. What they read, and the faults that
they find, stay the same, unless the lower limit is what stops them.
-/

/-- The limit on brackets is what stopped the parser. -/
def SyntaxError.IsNesting (error : SyntaxError) : Prop :=
  error.fault = .nestedTooDeeply

/-- The same place in the same text, under a limit that is not lower. -/
inductive Cursor.Within (cursor : Cursor) : Cursor → Prop where
  | limit {limit : Option Nat} (atMost : AtMost cursor.limit limit) :
      Within cursor { cursor with limit }

namespace Parser

/-- Under a higher limit the second parser does what the first does, unless this is stopped. -/
def Agrees (parser other : Parser α) : Prop :=
  Step.Parallel Cursor.Within Eq SyntaxError.IsNesting parser other Eq

/-- The parser does the same under a higher limit, unless the lower one stops it. -/
abbrev Widens (parser : Parser α) : Prop :=
  parser.Agrees parser

namespace Agrees

variable {α β : Type} {parser : Parser α}

theorem pure {value : α} : (Pure.pure value : Parser α).Widens :=
  Step.Parallel.pure rfl

theorem throw {error fault : SyntaxError} (same : error = fault) :
    Agrees (MonadExcept.throw error : Parser α) (MonadExcept.throw fault) :=
  Step.Parallel.throw same

section

variable {first second : Parser β}

/-- What follows may still depend on a cursor from before. -/
theorem bind {next later : α → Parser β} (widens : parser.Widens)
    (rest : ∀ value, (next value).Agrees (later value)) :
    (parser >>= next).Agrees (parser >>= later) :=
  Step.Parallel.bind widens fun value _ same => same ▸ rest value

/-- A step that looks at the cursor must not see its limit. -/
theorem get_bind {next later : Cursor → Parser α}
    (rest : ∀ cursor other, cursor.Within other → (next cursor).Agrees (later other)) :
    Agrees (MonadState.get >>= next) (MonadState.get >>= later) :=
  Step.Parallel.bind .get rest

/-- Going back to an earlier place. -/
theorem set_bind {cursor wider : Cursor} {next : PUnit → Parser α} (within : cursor.Within wider)
    (rest : (next ⟨⟩).Widens) :
    Agrees (MonadStateOf.set cursor >>= next) (MonadStateOf.set wider >>= next) :=
  (Step.Parallel.set within).bind fun _ _ _ => rest

theorem ite {condition : Prop} [Decidable condition] {firstToo secondToo : Parser β}
    (yes : first.Agrees second) (no : firstToo.Agrees secondToo) :
    Agrees (if condition then first else firstToo) (if condition then second else secondToo) :=
  Step.Parallel.ite Iff.rfl (fun _ _ => yes) fun _ _ => no

end

theorem modify {change : Cursor → Cursor}
    (keeps : ∀ cursor other, cursor.Within other → (change cursor).Within (change other)) :
    (modify change : Parser PUnit).Widens :=
  (Step.Parallel.modify keeps).mono fun _ _ _ => rfl

theorem failsFrom (fault : SyntaxFault) (start : Nat) (values : α → β → Prop) :
    Step.Parallel Cursor.Within Eq SyntaxError.IsNesting (Parser.failFrom fault start)
      (Parser.failFrom fault start) values := by
  refine Step.Parallel.bind .get ?_
  rintro cursor _ ⟨_⟩
  exact .throw rfl

theorem fails (fault : SyntaxFault) (values : α → β → Prop) :
    Step.Parallel Cursor.Within Eq SyntaxError.IsNesting (Parser.fail fault) (Parser.fail fault)
      values := by
  refine Step.Parallel.bind .get ?_
  rintro cursor _ ⟨_⟩
  exact failsFrom fault cursor.position values

theorem failFrom (fault : SyntaxFault) (start : Nat) : (failFrom fault start : Parser α).Widens :=
  failsFrom fault start Eq

theorem fail (fault : SyntaxFault) : (fail fault : Parser α).Widens :=
  fails fault Eq

/-- Where both parsers fail, it does not matter what would follow. -/
theorem failFrom_bind {fault : SyntaxFault} {start : Nat} {next later : α → Parser β} :
    Agrees (Parser.failFrom fault start >>= next) (Parser.failFrom fault start >>= later) :=
  Step.Parallel.bind (failsFrom fault start fun _ _ => False) fun _ _ never => never.elim

theorem fail_bind {fault : SyntaxFault} {next later : α → Parser β} :
    Agrees (Parser.fail fault >>= next) (Parser.fail fault >>= later) :=
  Step.Parallel.bind (fails fault fun _ _ => False) fun _ _ never => never.elim

theorem advance (count : Nat) : (advance count).Widens := by
  refine modify ?_
  rintro cursor _ ⟨atMost⟩
  exact ⟨atMost⟩

theorem lexeme (look : List Char → Lexeme α) : (lexeme look).Widens := by
  refine get_bind ?_
  rintro cursor _ ⟨_⟩
  dsimp only
  cases look cursor.ahead with
  | absent => exact pure
  | found value length => exact (advance length).bind fun _ => pure
  | spoilt fault start stop => exact (advance stop).bind fun _ => failFrom fault _

theorem skipBlank : skipBlank.Widens := by
  refine get_bind ?_
  rintro cursor _ ⟨_⟩
  dsimp only
  cases blankLength cursor.ahead with
  | ok length => exact advance length
  | error start => exact (advance _).bind fun _ => failFrom .openComment _

theorem expectBlank (fault : SyntaxFault) : (expectBlank fault).Widens := by
  refine get_bind ?_
  rintro begun _ ⟨_⟩
  refine skipBlank.bind fun _ => get_bind ?_
  rintro cursor _ ⟨_⟩
  exact ite (fail fault) pure

theorem isAhead (char : Char) : (isAhead char).Widens := by
  refine get_bind ?_
  rintro cursor _ ⟨_⟩
  exact pure

theorem takeChar (char : Char) : (takeChar char).Widens :=
  (isAhead char).bind fun _ => ite ((advance 1).bind fun _ => pure) pure

theorem expectChar (char : Char) (fault : SyntaxFault) : (expectChar char fault).Widens :=
  (takeChar char).bind fun _ => ite pure (fail fault)

theorem takeKeyword (keyword : Keyword) : (takeKeyword keyword).Widens := by
  refine get_bind ?_
  rintro cursor _ ⟨_⟩
  dsimp only
  cases keyword.length? cursor.ahead with
  | some length => exact (advance length).bind fun _ => pure
  | none => exact pure

theorem isReservedAhead : isReservedAhead.Widens := by
  refine get_bind ?_
  rintro cursor _ ⟨_⟩
  exact pure

/-- Where one more bracket may be entered, it may be under a higher limit. -/
theorem enter : enter.Widens := by
  refine get_bind ?_
  rintro cursor _ ⟨atMost⟩
  dsimp only [Cursor.enter?]
  by_cases allowed : cursor.limit.all (cursor.depth < ·) = true
  · rw [if_pos allowed, if_pos (atMost.all allowed)]
    exact (Step.Parallel.set ⟨atMost⟩).mono fun _ _ _ => rfl
  · rw [if_neg allowed]
    exact Step.Parallel.excuse fun before => ⟨_, before, rfl, rfl⟩

theorem leave : leave.Widens := by
  refine modify ?_
  rintro cursor _ ⟨atMost⟩
  exact ⟨atMost⟩

theorem orStay {parser : Parser Bool} (widens : parser.Widens) : (orStay parser).Widens := by
  refine get_bind ?_
  rintro cursor _ ⟨atMost⟩
  refine bind widens fun _ => ?_
  exact ite pure (set_bind ⟨atMost⟩ pure)

theorem keywordAhead (keyword : Keyword) : (keywordAhead keyword).Widens :=
  orStay (skipBlank.bind fun _ => takeKeyword keyword)

theorem charAhead (char : Char) : (charAhead char).Widens :=
  orStay (skipBlank.bind fun _ => takeChar char)

theorem separatedWithin {separator : Parser Bool} {item : Parser α} (separates : separator.Widens)
    (items : item.Widens) (bound : Nat) : (separatedWithin separator item bound).Widens := by
  induction bound with
  | zero => exact fail _
  | succ bound induction =>
      exact items.bind fun _ => separates.bind fun _ => ite (induction.bind fun _ => pure) pure

theorem separated {separator : Parser Bool} {item : Parser α} (separates : separator.Widens)
    (items : item.Widens) : (separated separator item).Widens := by
  refine get_bind ?_
  rintro cursor _ ⟨_⟩
  exact separatedWithin separates items _

theorem countWithin {step : Parser Bool} (steps : step.Widens) (bound : Nat) :
    (countWithin step bound).Widens := by
  induction bound with
  | zero => exact pure
  | succ bound induction =>
      exact steps.bind fun _ => ite (induction.bind fun _ => pure) pure

theorem count {step : Parser Bool} (steps : step.Widens) : (count step).Widens := by
  refine get_bind ?_
  rintro cursor _ ⟨_⟩
  exact countWithin steps _

end Agrees

end Parser

end ObjectQuery
