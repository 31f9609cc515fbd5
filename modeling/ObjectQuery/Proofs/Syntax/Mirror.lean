import ObjectQuery.Proofs.Lexical.Gap
import ObjectQuery.Proofs.Parallel
import ObjectQuery.Proofs.Syntax.Consume

namespace ObjectQuery

/-!
Parsers on two texts that differ in a gap. Either both fail, or both read the
same and stop at the same place. The bounds of repeated parsers may differ too,
as long as each exceeds what is left to read.
-/

/--
The same place in texts that differ in a gap. Less than `left` is left to read
of the one, less than `right` of the other.
-/
structure Cursor.Abreast (gap : Gap) (left right : Nat) (cursor other : Cursor) : Prop where
  aligned : gap.Aligned cursor.ahead other.ahead
  depth : cursor.depth = other.depth
  limit : cursor.limit = other.limit
  below : cursor.ahead.length < left
  belowToo : other.ahead.length < right

namespace Cursor.Abreast

variable {gap : Gap} {left right count more : Nat} {cursor other : Cursor}

theorem advance (abreast : cursor.Abreast gap left right other)
    (aligned : gap.Aligned (cursor.ahead.drop count) (other.ahead.drop more)) :
    (cursor.advance count).Abreast gap left right (other.advance more) where
  aligned := aligned
  depth := abreast.depth
  limit := abreast.limit
  below := by
    rw [ahead_advance, List.length_drop]
    exact Nat.lt_of_le_of_lt (Nat.sub_le _ _) abreast.below
  belowToo := by
    rw [ahead_advance, List.length_drop]
    exact Nat.lt_of_le_of_lt (Nat.sub_le _ _) abreast.belowToo

theorem within (abreast : cursor.Abreast gap left right other) {most least : Nat}
    (below : cursor.ahead.length < most) (belowToo : other.ahead.length < least) :
    cursor.Abreast gap most least other :=
  ⟨abreast.aligned, abreast.depth, abreast.limit, below, belowToo⟩

theorem mono (abreast : cursor.Abreast gap left right other) {most least : Nat}
    (left_le : left ≤ most) (right_le : right ≤ least) : cursor.Abreast gap most least other :=
  abreast.within (Nat.lt_of_lt_of_le abreast.below left_le)
    (Nat.lt_of_lt_of_le abreast.belowToo right_le)

end Cursor.Abreast

namespace Parser

/-- On texts that differ in the gap the parsers both fail, or read the same and stop alike. -/
def Mirrors (gap : Gap) (left right : Nat) (parser other : Parser α) : Prop :=
  Step.Parallel (Cursor.Abreast gap left right) (fun _ _ => True) (fun _ => False) parser other Eq

/-- The parsers mirror each other however little is left to read. -/
def MirrorsBelow (gap : Gap) (left right : Nat) (parser other : Parser α) : Prop :=
  ∀ fewer ≤ left, ∀ less ≤ right, Mirrors gap fewer less parser other

/-- Both runs fail, or they read the same and end abreast. -/
def Matches (gap : Gap) (left right : Nat) (run other : EStateM.Result SyntaxError Cursor α) : Prop :=
  (∃ value after last, run = .ok value after ∧ other = .ok value last ∧
    after.Abreast gap left right last) ∨
  (∃ error after, run = .error error after) ∧ ∃ error last, other = .error error last

theorem Matches.mono {gap : Gap} {fewer less left right : Nat}
    {run other : EStateM.Result SyntaxError Cursor α} (matching : Matches gap fewer less run other)
    (left_le : fewer ≤ left) (right_le : less ≤ right) : Matches gap left right run other := by
  refine matching.imp_left ?_
  rintro ⟨value, after, last, run, runToo, abreast⟩
  exact ⟨value, after, last, run, runToo, abreast.mono left_le right_le⟩

/-- A step that mirrors itself, and takes up some text where it answers yes. -/
structure Strides (gap : Gap) (step : Parser Bool) : Prop where
  mirrors : ∀ left right, Mirrors gap left right step step
  consumes : Consumes step (· = true)

theorem MirrorsBelow.here {gap : Gap} {left right : Nat} {parser other : Parser α}
    (mirrors : MirrorsBelow gap left right parser other) : Mirrors gap left right parser other :=
  mirrors left (Nat.le_refl left) right (Nat.le_refl right)

theorem MirrorsBelow.mono {gap : Gap} {fewer less left right : Nat} {parser other : Parser α}
    (mirrors : MirrorsBelow gap left right parser other) (left_le : fewer ≤ left)
    (right_le : less ≤ right) : MirrorsBelow gap fewer less parser other :=
  fun most most_le least least_le =>
    mirrors most (Nat.le_trans most_le left_le) least (Nat.le_trans least_le right_le)

namespace Mirrors

variable {α β : Type} {gap : Gap} {left right : Nat} {parser other : Parser α}

theorem pure {value : α} : Mirrors gap left right (Pure.pure value) (Pure.pure value) :=
  Step.Parallel.pure rfl

section

variable {next later : α → Parser β} {first second firstToo secondToo : Parser β}

theorem bind (mirrors : Mirrors gap left right parser other)
    (rest : ∀ value, Mirrors gap left right (next value) (later value)) :
    Mirrors gap left right (parser >>= next) (other >>= later) :=
  Step.Parallel.bind mirrors fun value _ same => same ▸ rest value

theorem get_bind {next later : Cursor → Parser α}
    (rest : ∀ cursor other, cursor.Abreast gap left right other →
      Mirrors gap left right (next cursor) (later other)) :
    Mirrors gap left right (MonadState.get >>= next) (MonadState.get >>= later) :=
  Step.Parallel.bind .get rest

/-- Going back to an earlier place. -/
theorem set_bind {cursor mirrored : Cursor} {next later : PUnit → Parser α}
    (abreast : cursor.Abreast gap left right mirrored)
    (rest : Mirrors gap left right (next ⟨⟩) (later ⟨⟩)) :
    Mirrors gap left right (MonadStateOf.set cursor >>= next)
      (MonadStateOf.set mirrored >>= later) :=
  (Step.Parallel.set abreast).bind fun _ _ _ => rest

theorem ite {condition : Prop} [Decidable condition]
    (yes : Mirrors gap left right first second) (no : Mirrors gap left right firstToo secondToo) :
    Mirrors gap left right (if condition then first else firstToo)
      (if condition then second else secondToo) :=
  Step.Parallel.ite Iff.rfl (fun _ _ => yes) fun _ _ => no

end

theorem modify {change alter : Cursor → Cursor}
    (keeps : ∀ cursor other, cursor.Abreast gap left right other →
      (change cursor).Abreast gap left right (alter other)) :
    Mirrors gap left right (modify change : Parser PUnit) (modify alter) :=
  (Step.Parallel.modify keeps).mono fun _ _ _ => rfl

section

variable {fault faultToo : SyntaxFault} {start begun : Nat}

/-- Two parsers that fail mirror each other, wherever and however they fail. -/
theorem of_failing {values : α → β → Prop} {parser : Parser α} {other : Parser β}
    (fails : ∀ cursor, ∃ error after, parser cursor = .error error after)
    (failsToo : ∀ cursor, ∃ error after, other cursor = .error error after) :
    Step.Parallel (Cursor.Abreast gap left right) (fun _ _ => True) (fun _ => False) parser other
      values := by
  intro cursor mirrored _
  obtain ⟨error, after, run⟩ := fails cursor
  obtain ⟨errorToo, afterToo, runToo⟩ := failsToo mirrored
  rw [run]
  exact .inr ⟨errorToo, afterToo, runToo, trivial⟩

theorem failFrom :
    Mirrors gap left right (failFrom fault start : Parser α) (failFrom faultToo begun) :=
  of_failing (fun cursor => ⟨_, cursor, rfl⟩) fun cursor => ⟨_, cursor, rfl⟩

theorem fail : Mirrors gap left right (fail fault : Parser α) (fail faultToo) :=
  of_failing (fun cursor => ⟨_, cursor, rfl⟩) fun cursor => ⟨_, cursor, rfl⟩

variable {next later : α → Parser β}

theorem failFrom_bind :
    Mirrors gap left right (Parser.failFrom fault start >>= next)
      (Parser.failFrom faultToo begun >>= later) :=
  of_failing (fun cursor => ⟨_, cursor, rfl⟩) fun cursor => ⟨_, cursor, rfl⟩

theorem fail_bind :
    Mirrors gap left right (Parser.fail fault >>= next) (Parser.fail faultToo >>= later) :=
  of_failing (fun cursor => ⟨_, cursor, rfl⟩) fun cursor => ⟨_, cursor, rfl⟩

end

theorem of_runs (runs : ∀ cursor mirrored, cursor.Abreast gap left right mirrored →
    Matches gap left right (parser cursor) (other mirrored)) :
    Mirrors gap left right parser other := by
  intro cursor mirrored abreast
  rcases runs cursor mirrored abreast with ⟨value, after, last, run, runToo, reached⟩ |
    ⟨⟨error, after, run⟩, errorToo, last, runToo⟩
  · rw [run]
    exact ⟨value, last, runToo, rfl, reached⟩
  · rw [run]
    exact .inr ⟨errorToo, last, runToo, trivial⟩

theorem runs (mirrors : Mirrors gap left right parser other) {cursor mirrored : Cursor}
    (abreast : cursor.Abreast gap left right mirrored) :
    Matches gap left right (parser cursor) (other mirrored) := by
  cases run : parser cursor with
  | ok value after =>
      obtain ⟨_, last, runToo, rfl, reached⟩ := mirrors.of_ok abreast run
      exact .inl ⟨value, after, last, rfl, runToo, reached⟩
  | error error after =>
      obtain ⟨_, ⟨⟩⟩ | ⟨fault, last, runToo, _⟩ := mirrors.of_error abreast run
      exact .inr ⟨⟨error, after, rfl⟩, fault, last, runToo⟩

theorem lexeme {look : List Char → Lexeme α} (settled : Settled look) :
    Mirrors gap left right (lexeme look) (Parser.lexeme look) := by
  refine of_runs fun cursor mirrored abreast => ?_
  obtain ⟨same, aligned⟩ := abreast.aligned.settled settled
  rw [lexeme_run, lexeme_run, ← same]
  cases looked : look cursor.ahead with
  | absent => exact .inl ⟨_, _, _, rfl, rfl, abreast⟩
  | found value length => exact .inl ⟨_, _, _, rfl, rfl, abreast.advance (aligned looked)⟩
  | spoilt fault start stop => exact .inr ⟨⟨_, _, rfl⟩, _, _, rfl⟩

theorem skipBlank : Mirrors gap left right skipBlank Parser.skipBlank := by
  refine of_runs fun cursor mirrored abreast => ?_
  rcases abreast.aligned.blankLength with ⟨count, more, blank, blankToo, aligned, _⟩ |
    ⟨start, begun, blank, blankToo⟩
  · exact .inl ⟨_, _, _, skipBlank_of_ok blank, skipBlank_of_ok blankToo, abreast.advance aligned⟩
  · exact .inr ⟨skipBlank_of_error blank, skipBlank_of_error blankToo⟩

theorem expectBlank {fault : SyntaxFault} :
    Mirrors gap left right (expectBlank fault) (Parser.expectBlank fault) := by
  refine of_runs fun cursor mirrored abreast => ?_
  rcases abreast.aligned.blankLength with ⟨count, more, blank, blankToo, aligned, none_iff⟩ |
    ⟨start, begun, blank, blankToo⟩
  · have same : count = 0 ∧ cursor.ahead ≠ [] ↔ more = 0 ∧ mirrored.ahead ≠ [] :=
      and_congr none_iff (not_congr abreast.aligned.eq_nil_iff)
    rw [expectBlank_of_ok blank, expectBlank_of_ok blankToo]
    by_cases stays : count = 0 ∧ cursor.ahead ≠ []
    · rw [if_pos stays, if_pos (same.1 stays)]
      exact .inr ⟨⟨_, _, rfl⟩, _, _, rfl⟩
    · rw [if_neg stays, if_neg (mt same.2 stays)]
      exact .inl ⟨_, _, _, rfl, rfl, abreast.advance aligned⟩
  · obtain ⟨error, after, run⟩ := skipBlank_of_error blank
    obtain ⟨errorToo, last, runToo⟩ := skipBlank_of_error blankToo
    refine .inr ⟨⟨error, after, ?_⟩, errorToo, last, ?_⟩
    · rw [Parser.expectBlank, run_get, run_bind_of_error run]
    · rw [Parser.expectBlank, run_get, run_bind_of_error runToo]

theorem isAhead {char : Char} (divides : Divides char) :
    Mirrors gap left right (isAhead char) (Parser.isAhead char) := by
  refine get_bind fun cursor mirrored abreast => ?_
  have same : (cursor.ahead.head? == some char) = (mirrored.ahead.head? == some char) := by
    rw [Bool.eq_iff_iff, beq_iff_eq, beq_iff_eq]
    exact abreast.aligned.head?_iff divides
  rw [same]
  exact pure

theorem isReservedAhead : Mirrors gap left right isReservedAhead Parser.isReservedAhead := by
  refine get_bind fun cursor mirrored abreast => ?_
  rw [abreast.aligned.isReserved]
  exact pure

theorem takeChar {char : Char} (divides : Divides char) :
    Mirrors gap left right (takeChar char) (Parser.takeChar char) := by
  refine of_runs fun cursor mirrored abreast => ?_
  have same := abreast.aligned.head?_iff divides
  rw [takeChar_run, takeChar_run]
  by_cases head : cursor.ahead.head? = some char
  · rw [if_pos head, if_pos (same.1 head)]
    exact .inl ⟨_, _, _, rfl, rfl, abreast.advance (abreast.aligned.tail divides head)⟩
  · rw [if_neg head, if_neg (mt same.2 head)]
    exact .inl ⟨_, _, _, rfl, rfl, abreast⟩

theorem takeKeyword {keyword : Keyword} (known : keyword.IsKnown) :
    Mirrors gap left right (takeKeyword keyword) (Parser.takeKeyword keyword) := by
  refine of_runs fun cursor mirrored abreast => ?_
  obtain ⟨same, aligned⟩ := abreast.aligned.keyword known
  rw [takeKeyword_run, takeKeyword_run, ← same]
  cases found : keyword.length? cursor.ahead with
  | none => exact .inl ⟨_, _, _, rfl, rfl, abreast⟩
  | some length => exact .inl ⟨_, _, _, rfl, rfl, abreast.advance (aligned found)⟩

theorem enter : Mirrors gap left right enter Parser.enter := by
  refine get_bind fun cursor mirrored abreast => ?_
  dsimp only [Cursor.enter?]
  rw [abreast.limit, abreast.depth]
  by_cases allowed : mirrored.limit.all (mirrored.depth < ·) = true
  · rw [if_pos allowed, if_pos allowed]
    refine (Step.Parallel.set ?_).mono fun _ _ _ => rfl
    exact ⟨abreast.aligned, rfl, rfl, abreast.below, abreast.belowToo⟩
  · rw [if_neg allowed, if_neg allowed]
    exact fail

theorem leave : Mirrors gap left right leave Parser.leave :=
  modify fun _ _ abreast => ⟨abreast.aligned, congrArg (· - 1) abreast.depth, abreast.limit,
    abreast.below, abreast.belowToo⟩

theorem orStay {parser : Parser Bool} (mirrors : Mirrors gap left right parser parser) :
    Mirrors gap left right (orStay parser) (Parser.orStay parser) :=
  get_bind fun _ _ abreast => mirrors.bind fun _ => ite pure (set_bind abreast pure)

theorem keywordAhead {keyword : Keyword} (known : keyword.IsKnown) :
    Mirrors gap left right (keywordAhead keyword) (Parser.keywordAhead keyword) :=
  orStay (skipBlank.bind fun _ => takeKeyword known)

theorem charAhead {char : Char} (divides : Divides char) :
    Mirrors gap left right (charAhead char) (Parser.charAhead char) :=
  orStay (skipBlank.bind fun _ => takeChar divides)

theorem expectChar {char : Char} {fault : SyntaxFault} (divides : Divides char) :
    Mirrors gap left right (expectChar char fault) (Parser.expectChar char fault) :=
  (takeChar divides).bind fun _ => ite pure fail

/-- What follows a step that has taken up some text reads from less. -/
theorem bind_consumed {telling : α → Prop} {next later : α → Parser β}
    (mirrors : Mirrors gap left right parser parser) (consumes : Consumes parser telling)
    (moved : ∀ value, telling value → Mirrors gap (left - 1) (right - 1) (next value) (later value))
    (stayed : ∀ value, ¬telling value → Mirrors gap left right (next value) (later value)) :
    Mirrors gap left right (parser >>= next) (parser >>= later) := by
  refine of_runs fun cursor mirrored abreast => ?_
  rcases mirrors.runs abreast with ⟨value, after, last, run, runToo, reached⟩ |
    ⟨⟨error, after, run⟩, errorToo, last, runToo⟩
  · rw [run_bind run, run_bind runToo]
    by_cases tells : telling value
    · have fewer := (consumes cursor).of_ok run tells
      have less := (consumes mirrored).of_ok runToo tells
      have below := abreast.below
      have belowToo := abreast.belowToo
      exact ((moved value tells).runs (reached.within (by omega) (by omega))).mono
        (Nat.sub_le _ _) (Nat.sub_le _ _)
    · exact (stayed value tells).runs reached
  · exact .inr ⟨⟨error, after, run_bind_of_error run⟩, errorToo, last, run_bind_of_error runToo⟩

theorem get_bind_here {next later : Cursor → Parser α}
    (rest : ∀ cursor other, cursor.Abreast gap left right other →
      Mirrors gap (cursor.ahead.length + 1) (other.ahead.length + 1) (next cursor) (later other)) :
    Mirrors gap left right (MonadState.get >>= next) (MonadState.get >>= later) := by
  refine of_runs fun cursor mirrored abreast => ?_
  have here := abreast.within (Nat.lt_succ_self _) (Nat.lt_succ_self _)
  exact ((rest cursor mirrored abreast).runs here).mono abreast.below abreast.belowToo

/-- Where nothing can be left to read, not even the end, there is nothing to show. -/
theorem of_nothing (none : left = 0 ∨ right = 0) : Mirrors gap left right parser other := by
  refine of_runs fun cursor mirrored abreast => ?_
  have below := abreast.below
  have belowToo := abreast.belowToo
  omega

theorem strides_bind {step : Parser Bool} (strides : Strides gap step)
    {first second firstToo secondToo : Parser β}
    (yes : Mirrors gap (left - 1) (right - 1) first second)
    (no : Mirrors gap left right firstToo secondToo) :
    Mirrors gap left right (step >>= fun answer => if answer = true then first else firstToo)
      (step >>= fun answer => if answer = true then second else secondToo) := by
  refine bind_consumed (strides.mirrors left right) strides.consumes ?_ ?_
  · rintro _ rfl
    exact yes
  · intro answer stays
    rw [if_neg stays, if_neg stays]
    exact no

/-- A bracket that comes next, and what stands in it. -/
theorem bracketed {char : Char} (divides : Divides char)
    {inside insideToo : Nat → Parser α} {outside outsideToo : Parser α}
    (yes : ∀ start begun, Mirrors gap (left - 1) (right - 1) (inside start) (insideToo begun))
    (no : Mirrors gap left right outside outsideToo) :
    Mirrors gap left right
      (Parser.isAhead char >>= fun answer =>
        if answer = true then
          MonadState.get >>= fun cursor => Parser.advance 1 >>= fun _ => inside cursor.position
        else outside)
      (Parser.isAhead char >>= fun answer =>
        if answer = true then
          MonadState.get >>= fun cursor => Parser.advance 1 >>= fun _ => insideToo cursor.position
        else outsideToo) := by
  rw [isAhead_bind, isAhead_bind]
  refine get_bind fun cursor mirrored _ => ?_
  refine bind_consumed (takeChar divides) (.takeChar char) ?_ ?_
  · rintro _ rfl
    exact yes _ _
  · rintro _ no_
    rw [if_neg no_, if_neg no_]
    exact no

section Separated

variable {separator : Parser Bool} {item itemToo : Parser α} {bound most : Nat}

/-- Items and separators, of which there cannot be more than fits what is left to read. -/
theorem separatedWithin (separates : Strides gap separator)
    (items : MirrorsBelow gap left right item itemToo) (left_le : left ≤ bound)
    (right_le : right ≤ most) :
    Mirrors gap left right (separatedWithin separator item bound)
      (Parser.separatedWithin separator itemToo most) := by
  induction bound generalizing left right most with
  | zero => exact of_nothing (.inl (Nat.le_zero.1 left_le))
  | succ bound induction =>
      cases most with
      | zero => exact of_nothing (.inr (Nat.le_zero.1 right_le))
      | succ most =>
          refine items.here.bind fun first => ?_
          refine strides_bind separates ?_ pure
          exact (induction (items.mono (Nat.sub_le _ _) (Nat.sub_le _ _)) (by omega) (by omega)).bind
            fun _ => pure

theorem separated (separates : Strides gap separator)
    (items : MirrorsBelow gap left right item itemToo) :
    Mirrors gap left right (separated separator item) (Parser.separated separator itemToo) :=
  get_bind_here fun _ _ abreast =>
    separatedWithin separates (items.mono abreast.below abreast.belowToo) (Nat.le_refl _)
      (Nat.le_refl _)

end Separated

section Count

variable {step : Parser Bool} {bound most : Nat}

theorem countWithin_of_nil {cursor : Cursor} (ends : step cursor = .ok false cursor) (bound : Nat) :
    Parser.countWithin step bound cursor = .ok 0 cursor := by
  cases bound with
  | zero => rfl
  | succ bound =>
      rw [Parser.countWithin, run_bind ends]
      rfl

/-- Steps in a row, of which there cannot be more than fits what is left to read. -/
theorem countWithin (strides : Strides gap step)
    (ends : ∀ cursor : Cursor, cursor.ahead = [] → step cursor = .ok false cursor)
    (left_le : left ≤ bound + 1) (right_le : right ≤ most + 1) :
    Mirrors gap left right (countWithin step bound) (Parser.countWithin step most) := by
  have spent {left right bound most : Nat} (short : left ≤ 1 ∨ right ≤ 1) :
      Mirrors gap left right (Parser.countWithin step bound) (Parser.countWithin step most) := by
    refine of_runs fun cursor mirrored abreast => ?_
    have below := abreast.below
    have belowToo := abreast.belowToo
    have none : cursor.ahead = [] ∧ mirrored.ahead = [] := by
      rcases short with short | short
      · have none := List.eq_nil_of_length_eq_zero (l := cursor.ahead) (by omega)
        exact ⟨none, abreast.aligned.eq_nil_iff.1 none⟩
      · have none := List.eq_nil_of_length_eq_zero (l := mirrored.ahead) (by omega)
        exact ⟨abreast.aligned.eq_nil_iff.2 none, none⟩
    exact .inl ⟨_, _, _, countWithin_of_nil (ends _ none.1) _, countWithin_of_nil (ends _ none.2) _,
      abreast⟩
  induction bound generalizing left right most with
  | zero => exact spent (.inl left_le)
  | succ bound induction =>
      cases most with
      | zero => exact spent (.inr right_le)
      | succ most =>
          exact strides_bind strides ((induction (by omega) (by omega)).bind fun _ => pure) pure

theorem count (strides : Strides gap step)
    (ends : ∀ cursor : Cursor, cursor.ahead = [] → step cursor = .ok false cursor) :
    Mirrors gap left right (count step) (Parser.count step) :=
  get_bind_here fun _ _ _ => countWithin strides ends (Nat.le_refl _) (Nat.le_refl _)

end Count

end Mirrors

namespace Strides

variable {gap : Gap}

theorem takeChar {char : Char} (divides : Divides char) : Strides gap (takeChar char) where
  mirrors _ _ := .takeChar divides
  consumes := .takeChar char

theorem charAhead {char : Char} (divides : Divides char) : Strides gap (charAhead char) where
  mirrors _ _ := .charAhead divides
  consumes := .charAhead char

theorem keywordAhead {letter : Char} {word : List Char} {ends : Bool}
    (known : Keyword.IsKnown ⟨[letter :: word], ends⟩) :
    Strides gap (keywordAhead ⟨[letter :: word], ends⟩) where
  mirrors _ _ := .keywordAhead known
  consumes := .keywordAhead

end Strides

end Parser

end ObjectQuery
