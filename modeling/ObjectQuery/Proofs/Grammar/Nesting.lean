import ObjectQuery.Grammar.Statement
import ObjectQuery.Proofs.Syntax.Nesting

namespace ObjectQuery

/-!
The grammar under a higher limit on brackets. Each rule leaves as many brackets
as it enters, so that a text is read alike unless the lower limit stops it.
-/

namespace Grammar

open ObjectQuery.Parser

theorem laterSegment_widens (start : Nat) : (laterSegment start).Widens := by
  refine Agrees.skipBlank.bind fun _ => (Agrees.lexeme _).bind fun found => ?_
  cases found with
  | some segment => exact .pure
  | none => exact .failFrom _ _

theorem name_widens : name.Widens := by
  refine .get_bind ?_
  rintro cursor _ ⟨_⟩
  refine (Agrees.lexeme _).bind fun found => ?_
  cases found with
  | none => exact .pure
  | some first =>
      refine (Agrees.charAhead _).bind fun more => .ite ?_ .pure
      exact (Agrees.separated (.charAhead _) (laterSegment_widens _)).bind fun _ => .pure

theorem aliasName_widens : aliasName.Widens := by
  refine .get_bind ?_
  rintro cursor _ ⟨atMost⟩
  refine Agrees.skipBlank.bind fun _ => Agrees.get_bind ?_
  rintro ahead _ ⟨_⟩
  exact .ite (.set_bind ⟨atMost⟩ .pure) (.lexeme _)

theorem requiredName_widens (fault : SyntaxFault) : (requiredName fault).Widens := by
  refine Agrees.skipBlank.bind fun _ => Agrees.isReservedAhead.bind fun reserved => ?_
  refine .ite .fail_bind (name_widens.bind fun found => ?_)
  cases found with
  | some path => exact .pure
  | none => exact .fail fault

theorem requiredListItem_widens (start : Nat) : (requiredListItem start).Widens := by
  refine Agrees.skipBlank.bind fun _ => (Agrees.lexeme _).bind fun found => ?_
  cases found with
  | some item => exact .pure
  | none => exact .failFrom _ _

theorem valueList_widens : valueList.Widens := by
  refine .get_bind ?_
  rintro cursor _ ⟨_⟩
  refine (Agrees.expectChar _ _).bind fun _ => Agrees.enter.bind fun _ => ?_
  refine (Agrees.separated (.charAhead _) (requiredListItem_widens _)).bind fun items => ?_
  refine Agrees.skipBlank.bind fun _ => (Agrees.takeChar _).bind fun closed => ?_
  exact .ite (Agrees.leave.bind fun _ => .pure) .failFrom_bind

theorem argument_widens {call : Parser (Option (Field Query))} (calls : call.Widens) :
    (argument call).Widens := by
  refine calls.bind fun found => ?_
  cases found with
  | some field => exact .pure
  | none =>
      refine (Agrees.lexeme _).bind fun item => ?_
      cases item with
      | some item => exact .pure
      | none =>
          refine name_widens.bind fun path => ?_
          cases path with
          | some path => exact .pure
          | none => exact .fail _

theorem argumentsWith_widens {call : Parser (Option (Field Query))} (calls : call.Widens)
    (start : Nat) : (argumentsWith call start).Widens := by
  have item : Widens (do
      skipBlank
      argument call) :=
    Agrees.skipBlank.bind fun _ => argument_widens calls
  refine Agrees.skipBlank.bind fun _ => (Agrees.takeChar _).bind fun closed => .ite .pure ?_
  refine (Agrees.separated (.charAhead _) item).bind fun arguments => Agrees.skipBlank.bind fun _ => ?_
  exact (Agrees.takeChar _).bind fun closed => .ite .pure .failFrom_bind

theorem callWithin_widens (bound : Nat) : (callWithin bound).Widens := by
  induction bound with
  | zero => exact .fail _
  | succ bound induction =>
      refine .get_bind ?_
      rintro cursor _ ⟨atMost⟩
      refine (Agrees.lexeme _).bind fun found => ?_
      cases found with
      | none => exact .pure
      | some name =>
          refine Agrees.skipBlank.bind fun _ => (Agrees.takeChar _).bind fun opened => ?_
          refine .ite ?_ (.set_bind ⟨atMost⟩ .pure)
          refine Agrees.enter.bind fun _ => (argumentsWith_widens induction _).bind fun arguments => ?_
          exact Agrees.leave.bind fun _ => .pure

theorem call_widens : call.Widens := by
  refine .get_bind ?_
  rintro cursor _ ⟨_⟩
  exact callWithin_widens _

theorem isSubqueryAhead_widens : isSubqueryAhead.Widens := by
  refine .get_bind ?_
  rintro cursor _ ⟨_⟩
  dsimp only
  split
  · cases blankLength _ with
    | ok length => exact .pure
    | error start => exact .throw rfl
  · exact .pure

theorem leftOperand_widens (clause : ConditionClause) : (leftOperand clause).Widens := by
  refine call_widens.bind fun found => ?_
  cases found with
  | some field => exact .pure
  | none =>
      cases clause with
      | having => exact .fail _
      | filter =>
          refine name_widens.bind fun path => ?_
          cases path with
          | some path => exact .pure
          | none => exact .fail _

theorem rightNameOrList_widens (clause : ConditionClause) : (rightNameOrList clause).Widens := by
  have listed : Widens (do
      if ← isAhead '(' then
        return .ofKind (.literal (← valueList))
      else
        fail (.badComparison clause.clause .right) : Parser (Field Query)) :=
    (Agrees.isAhead _).bind fun bracket => .ite (valueList_widens.bind fun _ => .pure) (.fail _)
  unfold rightNameOrList
  refine .ite (name_widens.bind fun path => ?_) listed
  cases path with
  | some path => exact .pure
  | none => exact listed

section

variable {subquery : Parser Query} (inner : subquery.Widens)

include inner

theorem rightOperand_widens (clause : ConditionClause) : (rightOperand subquery clause).Widens := by
  refine (Agrees.lexeme _).bind fun item => ?_
  cases item with
  | some item => exact .pure
  | none =>
      refine isSubqueryAhead_widens.bind fun nested => .ite (inner.bind fun _ => .pure) ?_
      refine call_widens.bind fun found => ?_
      cases found with
      | some field => exact .pure
      | none => exact rightNameOrList_widens clause

theorem comparisonTerm_widens (clause : ConditionClause) :
    (comparisonTerm subquery clause).Widens := by
  refine Agrees.isReservedAhead.bind fun reserved => .ite .fail_bind ?_
  refine (leftOperand_widens clause).bind fun left => Agrees.skipBlank.bind fun _ => ?_
  refine (Agrees.lexeme _).bind fun found => ?_
  cases found with
  | none => exact .fail _
  | some operator =>
      exact Agrees.skipBlank.bind fun _ => (rightOperand_widens inner clause).bind fun _ => .pure

omit inner in
theorem groupTerm_widens {conditions : Parser (List (Condition (Field Query)))}
    (widens : conditions.Widens) (clause : ConditionClause) :
    (groupTerm conditions clause).Widens := by
  refine .get_bind ?_
  rintro cursor _ ⟨_⟩
  refine (Agrees.advance 1).bind fun _ => Agrees.enter.bind fun _ => widens.bind fun inner => ?_
  refine Agrees.skipBlank.bind fun _ => (Agrees.takeChar _).bind fun closed => ?_
  exact .ite (Agrees.leave.bind fun _ => .pure) .failFrom_bind

omit inner in
theorem negation_widens : negation.Widens :=
  (Agrees.takeKeyword _).bind fun _ => .ite (Agrees.skipBlank.bind fun _ => .pure) .pure

theorem term_widens {conditions : Parser (List (Condition (Field Query)))}
    (widens : conditions.Widens) (clause : ConditionClause) :
    (term subquery conditions clause).Widens := by
  refine Agrees.skipBlank.bind fun _ => (Agrees.count negation_widens).bind fun negations => ?_
  refine (Agrees.isAhead _).bind fun bracket => .ite ?_ ?_
  · exact (groupTerm_widens widens clause).bind fun _ => .pure
  · exact (comparisonTerm_widens inner clause).bind fun _ => .pure

theorem conditionsWithin_widens (clause : ConditionClause) (bound : Nat) :
    (conditionsWithin subquery clause bound).Widens := by
  induction bound with
  | zero => exact .fail _
  | succ bound induction =>
      have conjunction : Widens (do
          let terms ← separated (keywordAhead .and)
            (term subquery (conditionsWithin subquery clause bound) clause)
          return Condition.joined .and terms) :=
        (Agrees.separated (.keywordAhead _) (term_widens inner induction clause)).bind
          fun _ => .pure
      exact (Agrees.separated (.keywordAhead _) conjunction).bind fun _ => .pure

theorem conditionsWith_widens (clause : ConditionClause) :
    (conditionsWith subquery clause).Widens := by
  refine .get_bind ?_
  rintro cursor _ ⟨_⟩
  exact conditionsWithin_widens inner clause _

theorem selectItemWith_widens : (selectItemWith subquery).Widens := by
  have aliased (field : Field Query) : Widens (do
      return { field with aliasName := ← aliasName }) :=
    aliasName_widens.bind fun _ => .pure
  refine Agrees.skipBlank.bind fun _ => Agrees.isReservedAhead.bind fun reserved => ?_
  refine .ite .fail_bind (isSubqueryAhead_widens.bind fun nested => ?_)
  refine .ite (inner.bind fun _ => aliased _) (call_widens.bind fun found => ?_)
  cases found with
  | some field => exact aliased field
  | none =>
      refine name_widens.bind fun path => ?_
      cases path with
      | some path => exact aliased _
      | none => exact .fail_bind

theorem conditionClause_widens (clause : ConditionClause) :
    (conditionClause subquery clause).Widens := by
  have conditions := conditionsWith_widens inner clause
  refine (Agrees.isAhead _).bind fun bracket => .ite conditions ?_
  exact (Agrees.expectBlank _).bind fun _ => conditions

end

theorem object_widens : object.Widens :=
  (requiredName_widens _).bind fun _ => aliasName_widens.bind fun _ => .pure

theorem groupKey_widens : groupKey.Widens :=
  (requiredName_widens _).bind fun _ => .pure

theorem eitherWord_widens (word other : Keyword) : (eitherWord word other).Widens :=
  (Agrees.keywordAhead _).bind fun _ => .ite .pure ((Agrees.keywordAhead _).bind fun _ => .pure)

theorem orderKey_widens : orderKey.Widens :=
  (requiredName_widens _).bind fun _ => (eitherWord_widens _ _).bind fun _ =>
    (eitherWord_widens _ _).bind fun _ => .pure

theorem rowBound_widens (clause : Clause) : (rowBound clause).Widens := by
  refine (Agrees.expectBlank _).bind fun _ => (Agrees.lexeme _).bind fun found => ?_
  cases found with
  | some name => exact .pure
  | none =>
      refine .get_bind ?_
      rintro cursor _ ⟨_⟩
      refine (Agrees.lexeme _).bind fun found => ?_
      split
      · exact .ite .pure (.failFrom _ _)
      · exact .failFrom _ _

theorem addRowBound_widens (bounds : RowBounds) : (addRowBound bounds).Widens := by
  have unless_ (given : Bool) (keyword : Keyword) :
      (pure given <&&> keywordAhead keyword).Widens :=
    Agrees.bind .pure fun absent => by
      cases absent with
      | true => exact .keywordAhead keyword
      | false => exact .pure
  refine (unless_ _ _).bind fun offset => .ite ((rowBound_widens _).bind fun _ => .pure) ?_
  exact (unless_ _ _).bind fun limit => .ite ((rowBound_widens _).bind fun _ => .pure) .pure

theorem rowBounds_widens : rowBounds.Widens :=
  (addRowBound_widens _).bind fun _ => .ite .pure (addRowBound_widens _)

theorem partner_widens (keyword : Keyword) : (partner keyword).Widens := by
  refine .get_bind ?_
  rintro cursor _ ⟨_⟩
  refine (Agrees.charAhead _).bind fun more => .ite ?_ .pure
  refine Agrees.skipBlank.bind fun _ => (Agrees.takeKeyword _).bind fun taken => ?_
  exact .ite .pure .failFrom_bind

theorem updateUses_widens : updateUses.Widens := by
  refine (Agrees.keywordAhead _).bind fun tracking => .ite ?_ ?_
  · exact (partner_widens _).bind fun _ => .pure
  · refine (Agrees.keywordAhead _).bind fun viewstat => .ite ?_ .pure
    exact (partner_widens _).bind fun _ => .pure

theorem access_widens : access.Widens := by
  refine .get_bind ?_
  rintro cursor _ ⟨_⟩
  refine (Agrees.expectBlank _).bind fun _ => (Agrees.takeKeyword _).bind fun view => .ite ?_ ?_
  · exact (partner_widens _).bind fun _ => .pure
  refine (Agrees.takeKeyword _).bind fun reference => .ite ?_ ?_
  · exact (partner_widens _).bind fun _ => .pure
  exact (Agrees.takeKeyword _).bind fun update => .ite updateUses_widens (.failFrom _ _)

theorem clauseOr_widens {α : Type} {keyword : Keyword} {absent : α} {content : Parser α}
    (widens : content.Widens) : (clauseOr keyword absent content).Widens :=
  (Agrees.keywordAhead _).bind fun _ => .ite widens .pure

theorem statementWith_widens {subquery : Parser Query} (inner : subquery.Widens) :
    (statementWith subquery).Widens := by
  refine (Agrees.takeKeyword _).bind fun begun => .ite ?_ .fail_bind
  refine (Agrees.expectBlank _).bind fun _ => ?_
  refine (Agrees.separated (.charAhead _) (selectItemWith_widens inner)).bind fun fields => ?_
  refine (Agrees.keywordAhead _).bind fun listed => .ite ?_ .fail_bind
  refine (Agrees.separated (.charAhead _) object_widens).bind fun objects => ?_
  refine (clauseOr_widens (conditionClause_widens inner .filter)).bind fun filter => ?_
  refine (clauseOr_widens (.separated (.charAhead _) groupKey_widens)).bind fun groupBy => ?_
  refine (clauseOr_widens (conditionClause_widens inner .having)).bind fun having => ?_
  refine (clauseOr_widens (.separated (.charAhead _) orderKey_widens)).bind fun orderBy => ?_
  exact rowBounds_widens.bind fun bounds => (clauseOr_widens access_widens).bind fun _ => .pure

theorem subqueryWithin_widens (bound : Nat) : (subqueryWithin bound).Widens := by
  induction bound with
  | zero => exact .fail _
  | succ bound induction =>
      refine (Agrees.expectChar _ _).bind fun _ => Agrees.enter.bind fun _ => ?_
      refine Agrees.skipBlank.bind fun _ => (statementWith_widens induction).bind fun statement => ?_
      refine Agrees.skipBlank.bind fun _ => (Agrees.takeChar _).bind fun closed => ?_
      exact .ite (Agrees.leave.bind fun _ => .pure) .fail_bind

theorem subquery_widens : subquery.Widens := by
  refine .get_bind ?_
  rintro cursor _ ⟨_⟩
  exact subqueryWithin_widens _

theorem query_widens : query.Widens := by
  refine Agrees.skipBlank.bind fun _ => (statementWith_widens subquery_widens).bind fun statement => ?_
  refine Agrees.skipBlank.bind fun _ => .get_bind ?_
  rintro cursor _ ⟨_⟩
  exact .ite .pure .fail_bind

end Grammar

end ObjectQuery
