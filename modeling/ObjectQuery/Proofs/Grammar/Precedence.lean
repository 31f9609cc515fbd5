import ObjectQuery.Proofs.Grammar.Condition
import ObjectQuery.Proofs.Lexical.Word
import ObjectQuery.Proofs.Syntax.Keep
import ObjectQuery.Proofs.Syntax.Take

namespace ObjectQuery

/-!
Conditions as they are written: terms with connectives between them, in
brackets or not. What is returned for them joins the terms of each run of
conjunctions first, and then the runs.
-/

namespace Grammar

mutual

/-- A comparison or conditions in brackets, under the negations before it. -/
inductive Term where
  | compared (left : Field Query) (operator : Operator) (right : Field Query)
  | negated (inner : Term)
  | group (inner : Chain)

/-- Terms in the order they are written in, with the connectives between them. -/
inductive Chain where
  | last (term : Term)
  | conjoined (term : Term) (rest : Chain)
  | disjoined (term : Term) (rest : Chain)

end

mutual

/-- What a term contributes to a condition list. -/
def Term.conditions : Term → List (Condition (Field Query))
  | .compared left operator right => [.operand left, .operand right, .operator operator]
  | .negated inner => inner.conditions ++ [.operator .not]
  | .group inner => Condition.joined .or (inner.runs.map (Condition.joined .and))

/-- The longest runs of terms with nothing but conjunctions between them. -/
def Chain.runs : Chain → List (List (List (Condition (Field Query))))
  | .last term => [[term.conditions]]
  | .conjoined term rest => rest.runs.modifyHead (term.conditions :: ·)
  | .disjoined term rest => [term.conditions] :: rest.runs

end

def Chain.conditions (chain : Chain) : List (Condition (Field Query)) :=
  Condition.joined .or (chain.runs.map (Condition.joined .and))

section Reads

open ObjectQuery.Parser

variable (subquery : Parser Query) (clause : ConditionClause)

mutual

/-- Whether a term is written from one cursor up to another. -/
inductive ReadsTerm : Cursor → Term → Cursor → Prop
  | compared {start named signed spaced opposite rest : Cursor} {left right : Field Query}
      {operator : Operator} (bare : Keyword.not.length? start.ahead = none)
      (solid : start.ahead.head? ≠ some '(')
      (leftRead : leftOperand clause start = .ok left named)
      (gap : skipBlank named = .ok ⟨⟩ signed)
      (signRead : lexeme comparison signed = .ok (some operator) spaced)
      (otherGap : skipBlank spaced = .ok ⟨⟩ opposite)
      (rightRead : rightOperand subquery clause opposite = .ok right rest) :
      ReadsTerm start (.compared left operator right) rest
  | negated {start inside rest : Cursor} {inner : Term}
      (taken : negation start = .ok true inside) (reads : ReadsTerm inside inner rest) :
      ReadsTerm start (.negated inner) rest
  | group {start inside ended closing : Cursor} {inner : Chain}
      (opened : start.ahead.head? = some '(')
      (entered : (start.advance 1).enter? = some inside)
      (reads : ReadsChain inside inner ended)
      (gap : skipBlank ended = .ok ⟨⟩ closing)
      (closed : closing.ahead.head? = some ')') :
      ReadsTerm start (.group inner) (closing.advance 1).leave

/-- Whether terms are written from one cursor up to another, where no connective goes on. -/
inductive ReadsChain : Cursor → Chain → Cursor → Prop
  | last {cursor start rest : Cursor} {term : Term}
      (gap : skipBlank cursor = .ok ⟨⟩ start) (reads : ReadsTerm start term rest)
      (noAnd : keywordAhead .and rest = .ok false rest)
      (noOr : keywordAhead .or rest = .ok false rest) :
      ReadsChain cursor (.last term) rest
  | conjoined {cursor start ended next rest : Cursor} {term : Term} {others : Chain}
      (gap : skipBlank cursor = .ok ⟨⟩ start) (reads : ReadsTerm start term ended)
      (follows : keywordAhead .and ended = .ok true next) (later : ReadsChain next others rest) :
      ReadsChain cursor (.conjoined term others) rest
  | disjoined {cursor start ended next rest : Cursor} {term : Term} {others : Chain}
      (gap : skipBlank cursor = .ok ⟨⟩ start) (reads : ReadsTerm start term ended)
      (noAnd : keywordAhead .and ended = .ok false ended)
      (follows : keywordAhead .or ended = .ok true next) (later : ReadsChain next others rest) :
      ReadsChain cursor (.disjoined term others) rest

end

variable {subquery clause} {cursor : Cursor}

open Step

theorem meets_negation_of_ahead : Meets negation cursor fun answer after =>
    (answer = true → Keyword.not.length? cursor.ahead ≠ none ∧
      after.ahead.length < cursor.ahead.length) ∧
    (answer = false → after = cursor ∧ Keyword.not.length? cursor.ahead = none) := by
  have taken : Meets (takeKeyword .not) cursor fun answer after =>
      (answer = true → Keyword.not.length? cursor.ahead ≠ none ∧
        after.ahead.length < cursor.ahead.length) ∧
      (answer = false → after = cursor ∧ Keyword.not.length? cursor.ahead = none) := by
    refine .get_bind ?_
    cases found : Keyword.not.length? cursor.ahead with
    | none => exact .pure (by simp)
    | some length =>
        obtain ⟨positive, some⟩ := Keyword.length?_pos found
        refine .modify_bind (.pure ⟨fun _ => ⟨by simp, ?_⟩, by simp⟩)
        have ahead := List.length_pos_of_ne_nil some
        rw [Cursor.ahead_advance, List.length_drop]
        omega
  refine taken.bind fun answer next decided => ?_
  have kept : Meets skipBlank next fun _ after => after.ahead.length ≤ next.ahead.length := by
    refine .get_bind ?_
    split
    · exact next.length_ahead_advance_le _
    · exact .modify_bind (.of_runs fun _ _ failed => by cases failed)
  refine .ite (fun yes => kept.bind fun _ after shorter => .pure ?_) fun no => .pure ?_
  · obtain ⟨found, fewer⟩ := decided.1 yes
    exact ⟨fun _ => ⟨found, Nat.lt_of_le_of_lt shorter fewer⟩, by simp⟩
  · exact ⟨by simp, fun _ => decided.2 (by simpa using no)⟩

theorem meets_takeChar (char : Char) :
    Meets (takeChar char) cursor fun answer after =>
      answer = true → cursor.ahead.head? = some char ∧ after = cursor.advance 1 := by
  refine .get_bind (.ite (fun isAhead => .modify_bind (.pure fun _ => ?_)) fun _ => .pure (by simp))
  exact ⟨by simpa using isAhead, rfl⟩

theorem meets_orStay {parser : Parser Bool} :
    Meets (orStay parser) cursor fun answer after => answer = false → after = cursor := by
  have anything : Meets parser cursor fun _ _ => True := .of_runs fun _ _ _ => trivial
  refine .get_bind (anything.bind fun answer after _ => ?_)
  refine .ite (fun taken => .pure (by simp)) fun stays => .set_bind (.pure fun _ => rfl)

theorem meets_keywordAhead (keyword : Keyword) :
    Meets (keywordAhead keyword) cursor fun answer after =>
      keywordAhead keyword cursor = .ok answer after ∧ (answer = false → after = cursor) :=
  meets_orStay.run.mono fun _ _ holds => holds.symm

theorem ne_of_negation {inside : Cursor} (taken : negation cursor = .ok true inside) :
    Keyword.not.length? cursor.ahead ≠ none ∧ cursor.ahead.head? ≠ some '(' := by
  obtain ⟨found, -⟩ := (meets_negation_of_ahead.of_ok taken).1 rfl
  refine ⟨found, fun opened => found ?_⟩
  obtain ⟨others, ahead⟩ := List.head?_eq_some_iff.1 opened
  rw [ahead]
  rfl

mutual

/-- What is written from a cursor on is one term at most. -/
theorem ReadsTerm.unique {start rest stop : Cursor} {term other : Term}
    (reads : ReadsTerm subquery clause start term rest)
    (alike : ReadsTerm subquery clause start other stop) : other = term ∧ stop = rest := by
  cases reads with
  | compared bare solid leftRead gap signRead otherGap rightRead =>
      cases alike with
      | compared _ _ leftAlike gapAlike signAlike otherGapAlike rightAlike =>
          cases leftRead.symm.trans leftAlike
          cases gap.symm.trans gapAlike
          cases signRead.symm.trans signAlike
          cases otherGap.symm.trans otherGapAlike
          cases rightRead.symm.trans rightAlike
          exact ⟨rfl, rfl⟩
      | negated taken => exact absurd bare (ne_of_negation taken).1
      | group opened => exact absurd opened solid
  | negated taken inner =>
      cases alike with
      | compared bare => exact absurd bare (ne_of_negation taken).1
      | negated takenAlike innerAlike =>
          cases taken.symm.trans takenAlike
          obtain ⟨rfl, rfl⟩ := inner.unique innerAlike
          exact ⟨rfl, rfl⟩
      | group opened => exact absurd opened (ne_of_negation taken).2
  | group opened entered inner gap closed =>
      cases alike with
      | compared _ solid => exact absurd opened solid
      | negated taken => exact absurd opened (ne_of_negation taken).2
      | group _ enteredAlike innerAlike gapAlike =>
          cases entered.symm.trans enteredAlike
          obtain ⟨rfl, rfl⟩ := inner.unique innerAlike
          cases gap.symm.trans gapAlike
          exact ⟨rfl, rfl⟩

theorem ReadsChain.unique {start rest stop : Cursor} {chain other : Chain}
    (reads : ReadsChain subquery clause start chain rest)
    (alike : ReadsChain subquery clause start other stop) : other = chain ∧ stop = rest := by
  cases reads with
  | last gap own noAnd noOr =>
      cases alike with
      | last gapAlike ownAlike =>
          cases gap.symm.trans gapAlike
          exact (own.unique ownAlike).imp_left (congrArg _)
      | conjoined gapAlike ownAlike follows =>
          cases gap.symm.trans gapAlike
          cases (own.unique ownAlike).2
          cases noAnd.symm.trans follows
      | disjoined gapAlike ownAlike _ follows =>
          cases gap.symm.trans gapAlike
          cases (own.unique ownAlike).2
          cases noOr.symm.trans follows
  | conjoined gap own follows later =>
      cases alike with
      | last gapAlike ownAlike noAnd | disjoined gapAlike ownAlike noAnd =>
          cases gap.symm.trans gapAlike
          cases (own.unique ownAlike).2
          cases noAnd.symm.trans follows
      | conjoined gapAlike ownAlike followsAlike laterAlike =>
          cases gap.symm.trans gapAlike
          obtain ⟨rfl, rfl⟩ := own.unique ownAlike
          cases follows.symm.trans followsAlike
          exact (later.unique laterAlike).imp_left (congrArg _)
  | disjoined gap own noAnd follows later =>
      cases alike with
      | last gapAlike ownAlike _ noOr =>
          cases gap.symm.trans gapAlike
          cases (own.unique ownAlike).2
          cases noOr.symm.trans follows
      | conjoined gapAlike ownAlike followsAlike =>
          cases gap.symm.trans gapAlike
          cases (own.unique ownAlike).2
          cases noAnd.symm.trans followsAlike
      | disjoined gapAlike ownAlike _ followsAlike laterAlike =>
          cases gap.symm.trans gapAlike
          obtain ⟨rfl, rfl⟩ := own.unique ownAlike
          cases follows.symm.trans followsAlike
          exact (later.unique laterAlike).imp_left (congrArg _)

end

theorem meets_compared (bare : Keyword.not.length? cursor.ahead = none)
    (solid : cursor.ahead.head? ≠ some '(') :
    Meets (comparisonTerm subquery clause) cursor fun list rest =>
      ∃ term, ReadsTerm subquery clause cursor term rest ∧ list = term.conditions := by
  refine .get_bind (.ite (fun _ => meets_fail_bind) fun _ => ?_)
  refine Meets.itself.bind fun left named leftRead => ?_
  refine Meets.itself.bind fun _ signed gap => ?_
  refine Meets.itself.bind fun sign spaced signRead => ?_
  cases sign with
  | none => exact meets_fail
  | some operator =>
      refine Meets.itself.bind fun _ opposite otherGap => ?_
      refine Meets.itself.bind fun right rest rightRead => .pure ?_
      exact ⟨_, .compared bare solid leftRead gap signRead otherGap rightRead, rfl⟩

section Term

variable {conditions : Parser (List (Condition (Field Query)))}

theorem meets_grouped (opened : cursor.ahead.head? = some '(')
    (inner : ∀ inside, Meets conditions inside fun list rest =>
      ∃ chain, ReadsChain subquery clause inside chain rest ∧ list = chain.conditions) :
    Meets (groupTerm conditions clause) cursor fun list rest =>
      ∃ term, ReadsTerm subquery clause cursor term rest ∧ list = term.conditions := by
  have entered : Meets enter (cursor.advance 1) fun _ inside =>
      (cursor.advance 1).enter? = some inside := by
    refine .get_bind ?_
    split
    · rename_i inside entered
      exact entered
    · exact meets_fail
  refine .get_bind (.modify_bind (entered.bind fun _ inside entered => ?_))
  refine (inner inside).bind ?_
  rintro list ended ⟨chain, reads, rfl⟩
  refine Meets.itself.bind fun _ closing gap => ?_
  refine (meets_takeChar ')').bind fun answer rest taken => .ite (fun closed => ?_) fun _ => ?_
  · obtain ⟨closed, rfl⟩ := taken closed
    exact .modify_bind (.pure ⟨_, .group opened entered reads gap closed, rfl⟩)
  · exact meets_failFrom_bind

variable (subquery clause) in
/-- So many negations were written before the place where a cursor stopped. -/
theorem meets_negations : Meets (count negation) cursor fun times start =>
    Keyword.not.length? start.ahead = none ∧
      ∀ term rest, ReadsTerm subquery clause start term rest →
        ∃ whole, ReadsTerm subquery clause cursor whole rest ∧
          whole.conditions = Condition.negatedTimes times term.conditions := by
  have within (bound : Nat) (cursor : Cursor) (fits : cursor.ahead.length ≤ bound) :
      Meets (countWithin negation bound) cursor fun times start =>
        Keyword.not.length? start.ahead = none ∧
          ∀ term rest, ReadsTerm subquery clause start term rest →
            ∃ whole, ReadsTerm subquery clause cursor whole rest ∧
              whole.conditions = Condition.negatedTimes times term.conditions := by
    induction bound generalizing cursor with
    | zero =>
        have nothing : cursor.ahead = [] := List.eq_nil_of_length_eq_zero (by omega)
        refine .pure ⟨by rw [nothing]; rfl, fun term rest reads => ⟨term, reads, ?_⟩⟩
        exact (List.append_nil _).symm
    | succ bound induction =>
        refine meets_negation_of_ahead.run.bind ?_
        rintro answer after ⟨decided, run⟩
        refine .ite (fun taken => ?_) fun stays => .pure ?_
        · subst taken
          refine (induction after (by have := (decided.1 rfl).2; omega)).bind ?_
          rintro times start ⟨bare, wraps⟩
          refine .pure ⟨bare, fun term rest reads => ?_⟩
          obtain ⟨whole, inner, same⟩ := wraps term rest reads
          refine ⟨.negated whole, .negated run inner, ?_⟩
          rw [Term.conditions, same, Condition.negatedTimes, Condition.negatedTimes,
            List.replicate_succ', List.append_assoc]
        · obtain ⟨rfl, bare⟩ := decided.2 (by simpa using stays)
          exact ⟨bare, fun term rest reads => ⟨term, reads, (List.append_nil _).symm⟩⟩
  exact .get_bind (within _ _ (Nat.le_refl _))

theorem meets_term (inner : ∀ inside, Meets conditions inside fun list rest =>
      ∃ chain, ReadsChain subquery clause inside chain rest ∧ list = chain.conditions) :
    Meets (term subquery conditions clause) cursor fun list rest =>
      ∃ start term, skipBlank cursor = .ok ⟨⟩ start ∧
        ReadsTerm subquery clause start term rest ∧ list = term.conditions := by
  refine Meets.itself.bind fun _ start gap => ?_
  refine (meets_negations subquery clause).bind ?_
  rintro times inside ⟨bare, wraps⟩
  have wrapped {list : List (Condition (Field Query))} {rest : Cursor}
      (reads : ∃ term, ReadsTerm subquery clause inside term rest ∧ list = term.conditions) :
      ∃ start term, skipBlank cursor = .ok ⟨⟩ start ∧
        ReadsTerm subquery clause start term rest ∧
          Condition.negatedTimes times list = term.conditions := by
    obtain ⟨term, reads, rfl⟩ := reads
    obtain ⟨whole, wholeReads, same⟩ := wraps term rest reads
    exact ⟨start, whole, gap, wholeReads, same.symm⟩
  refine .get_bind (.ite (fun opened => ?_) fun solid => ?_)
  · exact (meets_grouped (by simpa using opened) inner).bind fun _ _ reads => .pure (wrapped reads)
  · exact (meets_compared bare (by simpa using solid)).bind
      fun _ _ reads => .pure (wrapped reads)

/--
Whether terms with conjunctions between them contribute the lists of a run, up
to a place where no conjunction goes on. They are all of the chain where nothing
else goes on either, and begin it where a disjunction does.
-/
structure Conjoins (subquery : Parser Query) (clause : ConditionClause) (cursor : Cursor)
    (run : List (List (Condition (Field Query)))) (ended : Cursor) : Prop where
  noAnd : keywordAhead .and ended = .ok false ended
  alone : keywordAhead .or ended = .ok false ended →
    ∃ chain, ReadsChain subquery clause cursor chain ended ∧ chain.runs = [run]
  before : ∀ {next others rest}, keywordAhead .or ended = .ok true next →
    ReadsChain subquery clause next others rest →
      ∃ chain, ReadsChain subquery clause cursor chain rest ∧ chain.runs = run :: others.runs

theorem meets_conjunction (inner : ∀ inside, Meets conditions inside fun list rest =>
      ∃ chain, ReadsChain subquery clause inside chain rest ∧ list = chain.conditions)
    (bound : Nat) (cursor : Cursor) :
    Meets (separatedWithin (keywordAhead .and) (term subquery conditions clause) bound) cursor
      (Conjoins subquery clause cursor) := by
  induction bound generalizing cursor with
  | zero => exact meets_fail
  | succ bound induction =>
      refine (meets_term inner).bind ?_
      rintro list ended ⟨start, term, gap, own, rfl⟩
      refine (meets_keywordAhead .and).bind ?_
      rintro answer next ⟨ahead, stays⟩
      refine .ite (fun more => ?_) fun noMore => .pure ?_
      · subst more
        refine (induction next).bind fun run stop conjoins => .pure ⟨conjoins.noAnd, ?_, ?_⟩
        · intro noOr
          obtain ⟨chain, later, runs⟩ := conjoins.alone noOr
          exact ⟨.conjoined term chain, .conjoined gap own ahead later, by simp [Chain.runs, runs]⟩
        · intro _ _ _ follows others
          obtain ⟨chain, later, runs⟩ := conjoins.before follows others
          exact ⟨.conjoined term chain, .conjoined gap own ahead later, by simp [Chain.runs, runs]⟩
      · obtain rfl : answer = false := by simpa using noMore
        obtain rfl := stays rfl
        refine ⟨ahead, fun noOr => ⟨.last term, .last gap own ahead noOr, by rw [Chain.runs]⟩, ?_⟩
        intro _ others _ follows later
        exact ⟨.disjoined term others, .disjoined gap own ahead follows later, by rw [Chain.runs]⟩

theorem meets_disjunction {conjunction : Parser (List (Condition (Field Query)))}
    (conjunctions : ∀ cursor, Meets conjunction cursor fun list ended =>
      ∃ run, Conjoins subquery clause cursor run ended ∧ list = Condition.joined .and run)
    (bound : Nat) (cursor : Cursor) :
    Meets (separatedWithin (keywordAhead .or) conjunction bound) cursor fun lists rest =>
      ∃ chain, ReadsChain subquery clause cursor chain rest ∧
        lists = chain.runs.map (Condition.joined .and) := by
  induction bound generalizing cursor with
  | zero => exact meets_fail
  | succ bound induction =>
      refine (conjunctions cursor).bind ?_
      rintro list ended ⟨run, conjoins, rfl⟩
      refine (meets_keywordAhead .or).bind ?_
      rintro answer next ⟨ahead, stays⟩
      refine .ite (fun more => ?_) fun noMore => .pure ?_
      · subst more
        refine (induction next).bind ?_
        rintro lists rest ⟨others, later, rfl⟩
        obtain ⟨chain, reads, runs⟩ := conjoins.before ahead later
        exact .pure ⟨chain, reads, by rw [runs, List.map_cons]⟩
      · obtain rfl : answer = false := by simpa using noMore
        obtain rfl := stays rfl
        obtain ⟨chain, reads, runs⟩ := conjoins.alone ahead
        exact ⟨chain, reads, by rw [runs, List.map_singleton]⟩

end Term

/-- What is read are terms as they are written, and their runs are joined in order. -/
theorem meets_conditionsWithin (bound : Nat) (cursor : Cursor) :
    Meets (conditionsWithin subquery clause bound) cursor fun list rest =>
      ∃ chain, ReadsChain subquery clause cursor chain rest ∧ list = chain.conditions := by
  induction bound generalizing cursor with
  | zero => exact meets_fail
  | succ bound induction =>
      have conjunctions (cursor : Cursor) : Meets (do
          let terms ← separated (keywordAhead .and)
            (term subquery (conditionsWithin subquery clause bound) clause)
          return Condition.joined .and terms) cursor fun list ended =>
            ∃ run, Conjoins subquery clause cursor run ended ∧
              list = Condition.joined .and run := by
        have terms : Meets (separated (keywordAhead .and)
            (term subquery (conditionsWithin subquery clause bound) clause)) cursor
              (Conjoins subquery clause cursor) :=
          .get_bind (meets_conjunction induction _ cursor)
        exact terms.bind fun run _ conjoins => .pure ⟨run, conjoins, rfl⟩
      have runs : Meets (separated (keywordAhead .or) _) cursor _ :=
        .get_bind (meets_disjunction conjunctions _ cursor)
      refine runs.bind ?_
      rintro lists rest ⟨chain, reads, rfl⟩
      exact .pure ⟨chain, reads, rfl⟩

end Reads

end Grammar

namespace ConditionTree

/-- Whether a tree has comparisons of two operands under connectives of conditions. -/
inductive IsCondition : ConditionTree α → Prop
  | compared {start stop leftStart leftStop rightStart rightStop : Nat} {operator : Operator}
      {left right : α} (compares : operator.isLogical = false) :
      IsCondition (.binary start stop operator (.leaf leftStart leftStop (.operand left))
        (.leaf rightStart rightStop (.operand right)))
  | not {start stop : Nat} {inner : ConditionTree α} (condition : inner.IsCondition) :
      IsCondition (.not start stop inner)
  | joined {start stop : Nat} {operator : Operator} {left right : ConditionTree α}
      (connects : operator = .and ∨ operator = .or) (leftCondition : left.IsCondition)
      (rightCondition : right.IsCondition) :
      IsCondition (.binary start stop operator left right)

end ConditionTree

theorem Formula.isCondition_tree (start : Nat) (formula : Formula α) :
    (formula.tree start).IsCondition := by
  induction formula generalizing start with
  | compared left comparison right => exact .compared comparison.compares
  | not inner induction => exact .not (induction start)
  | both left right leftInduction rightInduction =>
      exact .joined (.inl rfl) (leftInduction _) (rightInduction _)
  | either left right leftInduction rightInduction =>
      exact .joined (.inr rfl) (leftInduction _) (rightInduction _)

namespace Grammar

/--
Conditions that are read join the runs of the terms that are written, and are
the list of a tree whose connectives stand above comparisons of two operands.
-/
theorem exists_chain_of_parsed {clause : ConditionClause} {cursor rest : Cursor}
    {list : List (Condition (Field Query))} (parsed : conditions clause cursor = .ok list rest) :
    ∃ chain, ReadsChain subquery clause cursor chain rest ∧
      (∀ other stop, ReadsChain subquery clause cursor other stop → other = chain) ∧
      list = chain.conditions ∧
      ∃ tree, ConditionTree.ofPostfix list = .ok (some tree) ∧ tree.toPostfix = list ∧
        tree.IsCondition := by
  have meets : Step.Meets (conditions clause) cursor fun list rest =>
      ∃ chain, ReadsChain subquery clause cursor chain rest ∧ list = chain.conditions :=
    .get_bind (meets_conditionsWithin _ cursor)
  obtain ⟨chain, reads, rfl⟩ := meets.of_ok parsed
  obtain ⟨formula, equation⟩ := exists_formula parsed
  refine ⟨chain, reads, fun other stop alike => (reads.unique alike).1, rfl, formula.tree 0, ?_⟩
  rw [equation]
  exact ⟨formula.ofPostfix_postfixList, formula.toPostfix_tree 0, formula.isCondition_tree 0⟩

def mixed : Cursor :=
  Cursor.ofText "a<1 or b<2 and not c<3" none

def mixedConditions : List (Condition (Field Query)) :=
  [.operand (.ofKind (.column ["a"])), .operand (.ofKind (.literal (.int 1))), .operator .lt,
    .operand (.ofKind (.column ["b"])), .operand (.ofKind (.literal (.int 2))), .operator .lt,
    .operand (.ofKind (.column ["c"])), .operand (.ofKind (.literal (.int 3))), .operator .lt,
    .operator .not, .operator .and, .operator .or]

theorem conditions_mixed :
    conditions .filter mixed = .ok mixedConditions (mixed.advance 22) := by
  with_unfolding_all rfl

theorem exists_chain_of_mixed :
    conditions .filter mixed = .ok mixedConditions (mixed.advance 22) ∧
      ∃ chain, ReadsChain subquery .filter mixed chain (mixed.advance 22) ∧
        (∀ other stop, ReadsChain subquery .filter mixed other stop → other = chain) ∧
        mixedConditions = chain.conditions ∧
        ∃ tree, ConditionTree.ofPostfix mixedConditions = .ok (some tree) ∧
          tree.toPostfix = mixedConditions ∧ tree.IsCondition :=
  ⟨conditions_mixed, exists_chain_of_parsed conditions_mixed⟩

end Grammar

end ObjectQuery
