import ObjectQuery.Grammar.Statement
import ObjectQuery.Proofs.Syntax.Keep
import ObjectQuery.Proofs.Syntax.Proceed

namespace ObjectQuery

/-!
How the rules of the grammar proceed through a text. Each leaves the brackets
that it enters, and a rule that finds nothing leaves the cursor where it was.
-/

namespace Grammar

open ObjectQuery.Parser Step

variable {start earlier : Nat}

theorem laterSegment_proceeds (le : earlier ≤ start) : Proceeds start 0 (laterSegment earlier) := by
  refine Proceeds.skipBlank.bind fun _ => (Proceeds.lexeme moves_segment).bind fun found => ?_
  cases found with
  | some segment => exact .pure
  | none => exact .failFrom _ le

theorem name_proceeds : Proceeds start 0 name := by
  refine .get_bind fun cursor _ => (Proceeds.lexeme moves_segment).bind fun found => ?_
  cases found with
  | none => exact .pure
  | some first =>
      refine (Proceeds.charAhead _).bind fun more => .ite ?_ .pure
      refine (Proceeds.separated (.charAhead _) ?_).bind fun _ => .pure
      exact laterSegment_proceeds (Nat.le_refl _)

theorem aliasName_proceeds : Proceeds start 0 aliasName := by
  intro cursor begun
  refine .get_bind ((Proceeds.skipBlank cursor begun).bind fun _ middle reaches => .get_bind ?_)
  refine .ite (fun _ => .set_bind (.pure (.refl cursor))) fun _ => ?_
  exact (Proceeds.lexeme moves_identifier).onward begun reaches

theorem requiredName_proceeds (fault : SyntaxFault) : Proceeds start 0 (requiredName fault) := by
  refine Proceeds.skipBlank.bind fun _ => Proceeds.isReservedAhead.bind fun reserved => ?_
  refine .ite .fail_bind (name_proceeds.bind fun found => ?_)
  cases found with
  | some path => exact .pure
  | none => exact .fail fault

theorem requiredQuoted_proceeds (style : Quoted.Style) : Proceeds start 0 (requiredQuoted style) := by
  refine (Proceeds.lexeme (moves_quoted style)).bind fun found => ?_
  cases found with
  | some text => exact .pure
  | none => exact .fail _

theorem requiredParameter_proceeds : Proceeds start 0 requiredParameter := by
  refine (Proceeds.lexeme moves_parameter).bind fun found => ?_
  cases found with
  | some name => exact .pure
  | none => exact .fail _

theorem requiredListItem_proceeds (le : earlier ≤ start) :
    Proceeds start 0 (requiredListItem earlier) := by
  refine Proceeds.skipBlank.bind fun _ => (Proceeds.lexeme moves_listItem).bind fun found => ?_
  cases found with
  | some item => exact .pure
  | none => exact .failFrom _ le

theorem valueList_proceeds : Proceeds start 0 valueList := by
  refine .get_bind fun cursor _ => (Proceeds.expectChar _ _).bind fun _ => .enter_bind ?_
  refine (Proceeds.separated (.charAhead _) ?_).bind fun items => ?_
  · exact requiredListItem_proceeds (Nat.le_refl _)
  refine Proceeds.skipBlank.bind fun _ => (Proceeds.takeChar _).bind fun closed => ?_
  exact .ite (.leave_bind .pure) (.failFrom_bind (Nat.le_refl _))

theorem argument_proceeds {call : Parser (Option (Field Query))} (calls : Proceeds start 0 call) :
    Proceeds start 0 (argument call) := by
  refine calls.bind fun found => ?_
  cases found with
  | some field => exact .pure
  | none =>
      refine (Proceeds.lexeme moves_listItem).bind fun item => ?_
      cases item with
      | some item => exact .pure
      | none =>
          refine name_proceeds.bind fun path => ?_
          cases path with
          | some path => exact .pure
          | none => exact .fail _

theorem argumentsWith_proceeds {call : Parser (Option (Field Query))} (calls : Proceeds start 0 call)
    (le : earlier ≤ start) : Proceeds start 0 (argumentsWith call earlier) := by
  refine Proceeds.skipBlank.bind fun _ => (Proceeds.takeChar _).bind fun closed => .ite .pure ?_
  refine (Proceeds.separated (.charAhead _) ?_).bind fun arguments => ?_
  · exact Proceeds.skipBlank.bind fun _ => argument_proceeds calls
  refine Proceeds.skipBlank.bind fun _ => (Proceeds.takeChar _).bind fun closed => ?_
  exact .ite .pure (.failFrom_bind le)

/-- The brackets of a call with what is between them. -/
theorem callRest_proceeds {bound : Nat} (calls : Proceeds start 0 (callWithin bound))
    (le : earlier ≤ start) (name : String) :
    Proceeds start 0 (do
      enter
      let arguments ← argumentsWith (callWithin bound) earlier
      leave
      return some (Field.ofKind (.call name arguments) : Field Query)) :=
  .enter_bind ((argumentsWith_proceeds calls le).bind fun _ => .leave_bind .pure)

theorem callWithin_proceeds (bound : Nat) : Proceeds 0 0 (callWithin bound) := by
  induction bound with
  | zero => exact .fail _
  | succ bound induction =>
      intro cursor _
      have begun := Nat.le_refl cursor.position
      refine .get_bind ((Proceeds.lexeme moves_identifier cursor begun).bind
        fun found named reaches => ?_)
      cases found with
      | none => exact .pure reaches
      | some name =>
          refine (Proceeds.skipBlank.onward begun reaches).bind fun _ middle reaches => ?_
          refine ((Proceeds.takeChar _).onward begun reaches).bind fun opened inside reaches => ?_
          refine .ite (fun _ => ?_) fun _ => .set_bind (.pure (.refl cursor))
          exact (callRest_proceeds induction.anywhere (Nat.le_refl _) name).onward begun reaches

theorem call_proceeds : Proceeds start 0 call :=
  .get_bind fun _ _ => (callWithin_proceeds _).anywhere

theorem arguments_proceeds (le : earlier ≤ start) : Proceeds start 0 (arguments earlier) :=
  argumentsWith_proceeds call_proceeds le

theorem isSubqueryAhead_proceeds : Proceeds start 0 isSubqueryAhead := by
  intro cursor begun
  refine .get_bind ?_
  split
  · rename_i rest ahead
    cases blank : blankLength rest with
    | ok length => exact .pure (.refl cursor)
    | error start =>
        refine .throw (.atCursor rfl ?_)
        have inside := start_lt_of_blankLength blank
        have length := cursor.length_ahead
        rw [Cursor.position_advance]
        rw [ahead] at length ⊢
        simp only [List.length_cons] at length ⊢
        omega
  · exact .pure (.refl cursor)

theorem leftOperand_proceeds (clause : ConditionClause) : Proceeds start 0 (leftOperand clause) := by
  refine call_proceeds.bind fun found => ?_
  cases found with
  | some field => exact .pure
  | none =>
      cases clause with
      | having => exact .fail _
      | filter =>
          refine name_proceeds.bind fun path => ?_
          cases path with
          | some path => exact .pure
          | none => exact .fail _

theorem rightNameOrList_proceeds (clause : ConditionClause) :
    Proceeds start 0 (rightNameOrList clause) := by
  have listed : Proceeds start 0 (do
      if ← isAhead '(' then
        return .ofKind (.literal (← valueList))
      else
        fail (.badComparison clause.clause .right) : Parser (Field Query)) :=
    (Proceeds.isAhead _).bind fun bracket => .ite (valueList_proceeds.bind fun _ => .pure) (.fail _)
  unfold rightNameOrList
  refine .ite (name_proceeds.bind fun path => ?_) listed
  cases path with
  | some path => exact .pure
  | none => exact listed

section

variable {subquery : Parser Query} (inner : Proceeds 0 0 subquery)

include inner

theorem rightOperand_proceeds (clause : ConditionClause) :
    Proceeds start 0 (rightOperand subquery clause) := by
  refine (Proceeds.lexeme moves_listItem).bind fun item => ?_
  cases item with
  | some item => exact .pure
  | none =>
      refine isSubqueryAhead_proceeds.bind fun nested => .ite (inner.anywhere.bind fun _ => .pure) ?_
      refine call_proceeds.bind fun found => ?_
      cases found with
      | some field => exact .pure
      | none => exact rightNameOrList_proceeds clause

theorem comparisonTerm_proceeds (clause : ConditionClause) :
    Proceeds start 0 (comparisonTerm subquery clause) := by
  refine Proceeds.isReservedAhead.bind fun reserved => .ite .fail_bind ?_
  refine (leftOperand_proceeds clause).bind fun left => Proceeds.skipBlank.bind fun _ => ?_
  refine (Proceeds.lexeme moves_comparison).bind fun found => ?_
  cases found with
  | none => exact .fail _
  | some operator =>
      exact Proceeds.skipBlank.bind fun _ => (rightOperand_proceeds inner clause).bind fun _ => .pure

omit inner in
theorem groupTerm_proceeds {conditions : Parser (List (Condition (Field Query)))}
    (proceeds : Proceeds 0 0 conditions) (clause : ConditionClause) :
    Proceeds start 0 (groupTerm conditions clause) := by
  refine .get_bind fun cursor _ => (Proceeds.advance 1).bind fun _ => .enter_bind ?_
  refine proceeds.anywhere.bind fun inner => Proceeds.skipBlank.bind fun _ => ?_
  refine (Proceeds.takeChar _).bind fun closed => ?_
  exact .ite (.leave_bind .pure) (.failFrom_bind (Nat.le_refl _))

omit inner in
theorem negation_proceeds : Proceeds start 0 negation :=
  (Proceeds.takeKeyword _).bind fun _ => .ite (Proceeds.skipBlank.bind fun _ => .pure) .pure

theorem term_proceeds {conditions : Parser (List (Condition (Field Query)))}
    (proceeds : Proceeds 0 0 conditions) (clause : ConditionClause) :
    Proceeds start 0 (term subquery conditions clause) := by
  refine Proceeds.skipBlank.bind fun _ => negation_proceeds.count.bind fun negations => ?_
  refine (Proceeds.isAhead _).bind fun bracket => .ite ?_ ?_
  · exact (groupTerm_proceeds proceeds clause).bind fun _ => .pure
  · exact (comparisonTerm_proceeds inner clause).bind fun _ => .pure

theorem conditionsWithin_proceeds (clause : ConditionClause) (bound : Nat) :
    Proceeds 0 0 (conditionsWithin subquery clause bound) := by
  induction bound with
  | zero => exact .fail _
  | succ bound induction =>
      refine (Proceeds.separated (.keywordAhead _) ?_).bind fun _ => .pure
      refine (Proceeds.separated (.keywordAhead _) ?_).bind fun _ => .pure
      exact term_proceeds inner induction clause

theorem conditionsWith_proceeds (clause : ConditionClause) :
    Proceeds start 0 (conditionsWith subquery clause) :=
  .get_bind fun _ _ => (conditionsWithin_proceeds inner clause _).anywhere

theorem selectItemWith_proceeds : Proceeds start 0 (selectItemWith subquery) := by
  have aliased (field : Field Query) : Proceeds start 0 (do
      return { field with aliasName := ← aliasName }) :=
    aliasName_proceeds.bind fun _ => .pure
  refine Proceeds.skipBlank.bind fun _ => Proceeds.isReservedAhead.bind fun reserved => ?_
  refine .ite .fail_bind (isSubqueryAhead_proceeds.bind fun nested => ?_)
  refine .ite (inner.anywhere.bind fun _ => aliased _) (call_proceeds.bind fun found => ?_)
  cases found with
  | some field => exact aliased field
  | none =>
      refine name_proceeds.bind fun path => ?_
      cases path with
      | some path => exact aliased _
      | none => exact .fail_bind

theorem selectItemsWith_proceeds : Proceeds start 0 (selectItemsWith subquery) :=
  .separated (.charAhead _) (selectItemWith_proceeds inner)

theorem conditionClause_proceeds (clause : ConditionClause) :
    Proceeds start 0 (conditionClause subquery clause) := by
  refine (Proceeds.isAhead _).bind fun bracket => .ite (conditionsWith_proceeds inner clause) ?_
  exact (Proceeds.expectBlank _).bind fun _ => conditionsWith_proceeds inner clause

end

theorem object_proceeds : Proceeds start 0 object :=
  (requiredName_proceeds _).bind fun _ => aliasName_proceeds.bind fun _ => .pure

theorem objects_proceeds : Proceeds start 0 objects :=
  .separated (.charAhead _) object_proceeds

theorem groupKey_proceeds : Proceeds start 0 groupKey :=
  (requiredName_proceeds _).bind fun _ => .pure

theorem groupKeys_proceeds : Proceeds start 0 groupKeys :=
  .separated (.charAhead _) groupKey_proceeds

theorem eitherWord_proceeds (word other : Keyword) : Proceeds start 0 (eitherWord word other) :=
  (Proceeds.keywordAhead _).bind fun _ => .ite .pure ((Proceeds.keywordAhead _).bind fun _ => .pure)

theorem orderKey_proceeds : Proceeds start 0 orderKey :=
  (requiredName_proceeds _).bind fun _ => (eitherWord_proceeds _ _).bind fun _ =>
    (eitherWord_proceeds _ _).bind fun _ => .pure

theorem orderKeys_proceeds : Proceeds start 0 orderKeys :=
  .separated (.charAhead _) orderKey_proceeds

theorem rowBound_proceeds (clause : Clause) : Proceeds start 0 (rowBound clause) := by
  refine (Proceeds.expectBlank _).bind fun _ => (Proceeds.lexeme moves_parameter).bind fun found => ?_
  cases found with
  | some name => exact .pure
  | none =>
      refine .get_bind fun cursor _ => (Proceeds.lexeme moves_numeral).bind fun found => ?_
      split
      · exact .ite .pure (.failFrom _ (Nat.le_refl _))
      · exact .failFrom _ (Nat.le_refl _)

theorem addRowBound_proceeds (bounds : RowBounds) : Proceeds start 0 (addRowBound bounds) := by
  have unless_ (given : Bool) (keyword : Keyword) :
      Proceeds start 0 (pure given <&&> keywordAhead keyword) :=
    Proceeds.bind .pure fun absent => by
      cases absent with
      | true => exact .keywordAhead keyword
      | false => exact .pure
  refine (unless_ _ _).bind fun offset => .ite ((rowBound_proceeds _).bind fun _ => .pure) ?_
  exact (unless_ _ _).bind fun limit => .ite ((rowBound_proceeds _).bind fun _ => .pure) .pure

theorem rowBounds_proceeds : Proceeds start 0 rowBounds :=
  (addRowBound_proceeds _).bind fun _ => .ite .pure (addRowBound_proceeds _)

theorem partner_proceeds (keyword : Keyword) : Proceeds start 0 (partner keyword) := by
  refine .get_bind fun cursor _ => (Proceeds.charAhead _).bind fun more => .ite ?_ .pure
  refine Proceeds.skipBlank.bind fun _ => (Proceeds.takeKeyword _).bind fun taken => ?_
  exact .ite .pure (.failFrom_bind (Nat.le_refl _))

theorem updateUses_proceeds : Proceeds start 0 updateUses := by
  refine (Proceeds.keywordAhead _).bind fun tracking => .ite ?_ ?_
  · exact (partner_proceeds _).bind fun _ => .pure
  · refine (Proceeds.keywordAhead _).bind fun viewstat => .ite ?_ .pure
    exact (partner_proceeds _).bind fun _ => .pure

theorem access_proceeds : Proceeds start 0 access := by
  refine .get_bind fun cursor _ => (Proceeds.expectBlank _).bind fun _ => ?_
  refine (Proceeds.takeKeyword _).bind fun view => .ite ?_ ?_
  · exact (partner_proceeds _).bind fun _ => .pure
  refine (Proceeds.takeKeyword _).bind fun reference => .ite ?_ ?_
  · exact (partner_proceeds _).bind fun _ => .pure
  refine (Proceeds.takeKeyword _).bind fun update => ?_
  exact .ite updateUses_proceeds (.failFrom _ (Nat.le_refl _))

theorem clauseOr_proceeds {α : Type} {keyword : Keyword} {absent : α} {content : Parser α}
    (proceeds : Proceeds start 0 content) : Proceeds start 0 (clauseOr keyword absent content) :=
  (Proceeds.keywordAhead _).bind fun _ => .ite proceeds .pure

theorem statementWith_proceeds {subquery : Parser Query} (inner : Proceeds 0 0 subquery) :
    Proceeds start 0 (statementWith subquery) := by
  refine (Proceeds.takeKeyword _).bind fun begun => .ite ?_ .fail_bind
  refine (Proceeds.expectBlank _).bind fun _ => (selectItemsWith_proceeds inner).bind fun fields => ?_
  refine (Proceeds.keywordAhead _).bind fun listed => .ite ?_ .fail_bind
  refine objects_proceeds.bind fun objects => ?_
  refine (clauseOr_proceeds (conditionClause_proceeds inner .filter)).bind fun filter => ?_
  refine (clauseOr_proceeds groupKeys_proceeds).bind fun groupBy => ?_
  refine (clauseOr_proceeds (conditionClause_proceeds inner .having)).bind fun having => ?_
  refine (clauseOr_proceeds orderKeys_proceeds).bind fun orderBy => ?_
  exact rowBounds_proceeds.bind fun bounds => (clauseOr_proceeds access_proceeds).bind fun _ => .pure

theorem subqueryWithin_proceeds (bound : Nat) : Proceeds 0 0 (subqueryWithin bound) := by
  induction bound with
  | zero => exact .fail _
  | succ bound induction =>
      refine (Proceeds.expectChar _ _).bind fun _ => .enter_bind ?_
      refine Proceeds.skipBlank.bind fun _ => (statementWith_proceeds induction).bind fun statement => ?_
      refine Proceeds.skipBlank.bind fun _ => (Proceeds.takeChar _).bind fun closed => ?_
      exact .ite (.leave_bind .pure) .fail_bind

theorem subquery_proceeds : Proceeds start 0 subquery :=
  .get_bind fun _ _ => (subqueryWithin_proceeds _).anywhere

theorem statement_proceeds : Proceeds start 0 statement :=
  statementWith_proceeds subquery_proceeds

theorem query_proceeds : Proceeds start 0 query := by
  refine Proceeds.skipBlank.bind fun _ => statement_proceeds.bind fun statement => ?_
  exact Proceeds.skipBlank.bind fun _ => .get_bind fun cursor _ => .ite .pure .fail_bind

theorem name_offered : Offered name := by
  intro cursor
  refine .get_bind ((offered_lexeme moves_segment cursor).bind fun found middle told => ?_)
  cases found with
  | none => exact .pure told
  | some first =>
      have moved : cursor.position < middle.position := told
      refine ((Proceeds.charAhead '.').reaches (Nat.le_refl _)).bind fun more ahead reaches => ?_
      have further := Nat.lt_of_lt_of_le moved reaches.position
      refine .ite (fun _ => ?_) fun _ => .pure further
      have segments := Proceeds.separated (.charAhead '.')
        (laterSegment_proceeds (Nat.le_of_lt further))
      refine (segments.reaches (Nat.le_refl _)).bind fun rest after reached => .pure ?_
      exact Nat.lt_of_lt_of_le further reached.position

theorem aliasName_offered : Offered aliasName := by
  intro cursor
  refine .get_bind ((Proceeds.skipBlank.reaches (Nat.le_refl _)).bind fun _ middle reaches => ?_)
  refine .get_bind (.ite (fun _ => .set_bind (.pure rfl)) fun free => ?_)
  have opens : Identifier.isAhead middle.ahead = true := by simp_all
  refine meets_lexeme (fun absent => ?_) fun name length found => ?_
  · grind [identifier]
  · obtain ⟨positive, some_⟩ := moves_identifier.found found
    exact Nat.lt_of_le_of_lt reaches.position (Cursor.position_lt_advance positive some_)

theorem call_offered : Offered call := by
  intro cursor
  refine .get_bind (.get_bind ((offered_lexeme moves_identifier cursor).bind
    fun found named told => ?_))
  cases found with
  | none => exact .pure told
  | some name =>
      have moved : cursor.position < named.position := told
      refine (Proceeds.skipBlank.reaches (Nat.le_refl _)).bind fun _ middle reaches => ?_
      refine ((Proceeds.takeChar '(').reaches (Nat.le_refl _)).bind fun opened inside reached => ?_
      refine .ite (fun _ => ?_) fun _ => .set_bind (.pure rfl)
      have further := Nat.lt_of_lt_of_le moved (reaches.trans reached).position
      have entered : Meets enter inside fun _ after => cursor.position < after.position :=
        .of_runs fun _ _ run => (Proceeds.enters inside).of_ok run ▸ further
      refine entered.bind fun _ within deeper => ?_
      refine ((argumentsWith_proceeds (callWithin_proceeds _).anywhere
        (Nat.le_of_lt deeper)).reaches (Nat.le_refl _)).bind fun values ended reaches => ?_
      exact .modify_bind (.pure (Nat.lt_of_lt_of_le deeper reaches.position))

/-- What lexers look for. -/
inductive IsLexer : {α : Type} → (List Char → Lexeme α) → Prop
  | moment : IsLexer ObjectQuery.moment
  | numeral : IsLexer ObjectQuery.numeral
  | relativeDate : IsLexer ObjectQuery.relativeDate
  | listItem : IsLexer ObjectQuery.listItem
  | quoted (style : Quoted.Style) : IsLexer (ObjectQuery.quoted style)
  | parameter : IsLexer ObjectQuery.parameter
  | identifier : IsLexer ObjectQuery.identifier
  | segment : IsLexer ObjectQuery.segment
  | comparison : IsLexer ObjectQuery.comparison

/-- The rules that may find nothing where the cursor stands. -/
inductive IsOptional : {α : Type} → Parser (Option α) → Prop
  | lexer {α : Type} {look : List Char → Lexeme α} (isLexer : IsLexer look) :
      IsOptional (lexeme look)
  | name : IsOptional Grammar.name
  | aliasName : IsOptional Grammar.aliasName
  | call : IsOptional Grammar.call

/-- The rules of the grammar. -/
inductive IsRule : {α : Type} → Parser α → Prop
  | optional {α : Type} {parser : Parser (Option α)} (isOptional : IsOptional parser) :
      IsRule parser
  | requiredQuoted (style : Quoted.Style) : IsRule (Grammar.requiredQuoted style)
  | requiredParameter : IsRule Grammar.requiredParameter
  | valueList : IsRule Grammar.valueList
  | requiredName (fault : SyntaxFault) : IsRule (Grammar.requiredName fault)
  | argument : IsRule (Grammar.argument Grammar.call)
  | arguments : IsRule (do Grammar.arguments (← get).position)
  | selectItem : IsRule Grammar.selectItem
  | selectItems : IsRule Grammar.selectItems
  | object : IsRule Grammar.object
  | objects : IsRule Grammar.objects
  | isSubqueryAhead : IsRule Grammar.isSubqueryAhead
  | leftOperand (clause : ConditionClause) : IsRule (Grammar.leftOperand clause)
  | rightOperand (clause : ConditionClause) :
      IsRule (Grammar.rightOperand Grammar.subquery clause)
  | comparisonTerm (clause : ConditionClause) :
      IsRule (Grammar.comparisonTerm Grammar.subquery clause)
  | negation : IsRule Grammar.negation
  | term (clause : ConditionClause) :
      IsRule (Grammar.term Grammar.subquery (Grammar.conditions clause) clause)
  | conditions (clause : ConditionClause) : IsRule (Grammar.conditions clause)
  | conditionClause (clause : ConditionClause) :
      IsRule (Grammar.conditionClause Grammar.subquery clause)
  | groupKey : IsRule Grammar.groupKey
  | groupKeys : IsRule Grammar.groupKeys
  | orderKey : IsRule Grammar.orderKey
  | orderKeys : IsRule Grammar.orderKeys
  | rowBound (clause : Clause) : IsRule (Grammar.rowBound clause)
  | rowBounds : IsRule Grammar.rowBounds
  | partner (keyword : Keyword) : IsRule (Grammar.partner keyword)
  | updateUses : IsRule Grammar.updateUses
  | access : IsRule Grammar.access
  | subquery : IsRule Grammar.subquery
  | statement : IsRule Grammar.statement
  | query : IsRule Grammar.query

variable {α : Type}

theorem IsLexer.moves {look : List Char → Lexeme α} (isLexer : IsLexer look) : Moves look := by
  cases isLexer with
  | moment => exact moves_moment
  | numeral => exact moves_numeral
  | relativeDate => exact moves_relativeDate
  | listItem => exact moves_listItem
  | quoted style => exact moves_quoted style
  | parameter => exact moves_parameter
  | identifier => exact moves_identifier
  | segment => exact moves_segment
  | comparison => exact moves_comparison

theorem IsOptional.offered {parser : Parser (Option α)} (isOptional : IsOptional parser) :
    Offered parser := by
  cases isOptional with
  | lexer isLexer => exact offered_lexeme isLexer.moves
  | name => exact name_offered
  | aliasName => exact aliasName_offered
  | call => exact call_offered

theorem IsOptional.proceeds {parser : Parser (Option α)} (isOptional : IsOptional parser) :
    Proceeds 0 0 parser := by
  cases isOptional with
  | lexer isLexer => exact .lexeme isLexer.moves
  | name => exact name_proceeds
  | aliasName => exact aliasName_proceeds
  | call => exact call_proceeds

theorem IsRule.proceeds {parser : Parser α} (isRule : IsRule parser) : Proceeds 0 0 parser := by
  cases isRule with
  | optional isOptional => exact isOptional.proceeds
  | requiredQuoted style => exact requiredQuoted_proceeds style
  | requiredParameter => exact requiredParameter_proceeds
  | valueList => exact valueList_proceeds
  | requiredName fault => exact requiredName_proceeds fault
  | argument => exact argument_proceeds call_proceeds
  | arguments => exact .get_bind fun _ _ => arguments_proceeds (Nat.le_refl _)
  | selectItem => exact selectItemWith_proceeds subquery_proceeds
  | selectItems => exact selectItemsWith_proceeds subquery_proceeds
  | object => exact object_proceeds
  | objects => exact objects_proceeds
  | isSubqueryAhead => exact isSubqueryAhead_proceeds
  | leftOperand clause => exact leftOperand_proceeds clause
  | rightOperand clause => exact rightOperand_proceeds subquery_proceeds clause
  | comparisonTerm clause => exact comparisonTerm_proceeds subquery_proceeds clause
  | negation => exact negation_proceeds
  | term clause =>
      exact term_proceeds subquery_proceeds (conditionsWith_proceeds subquery_proceeds clause) clause
  | conditions clause => exact conditionsWith_proceeds subquery_proceeds clause
  | conditionClause clause => exact conditionClause_proceeds subquery_proceeds clause
  | groupKey => exact groupKey_proceeds
  | groupKeys => exact groupKeys_proceeds
  | orderKey => exact orderKey_proceeds
  | orderKeys => exact orderKeys_proceeds
  | rowBound clause => exact rowBound_proceeds clause
  | rowBounds => exact rowBounds_proceeds
  | partner keyword => exact partner_proceeds keyword
  | updateUses => exact updateUses_proceeds
  | access => exact access_proceeds
  | subquery => exact subquery_proceeds
  | statement => exact statement_proceeds
  | query => exact query_proceeds

/--
Where a rule succeeds, as many brackets are open after it as before, and the
cursor stands no further back in the same text, and not past its end. A rule that
may find nothing leaves the cursor in its place where it does, and further on
where it finds something.
-/
theorem progress :
    (∀ {α : Type} {parser : Parser α}, IsRule parser → ∀ {cursor after : Cursor} {value : α},
      parser cursor = .ok value after →
        after.source = cursor.source ∧ after.depth = cursor.depth ∧
          cursor.position ≤ after.position ∧ after.position ≤ cursor.source.length) ∧
    ∀ {α : Type} {parser : Parser (Option α)}, IsOptional parser → ∀ {cursor after : Cursor},
      (parser cursor = .ok none after → after = cursor) ∧
        ∀ value, parser cursor = .ok (some value) after → cursor.position < after.position := by
  refine ⟨fun {α parser} isRule {cursor after value} run => ?_,
    fun {α parser} isOptional {cursor after} => ⟨fun run => ?_, fun value run => ?_⟩⟩
  · obtain ⟨source, depth, position⟩ := (isRule.proceeds cursor (Nat.zero_le _)).of_ok run
    exact ⟨source, depth, position, source ▸ after.position_le⟩
  · exact (isOptional.offered cursor).of_ok run
  · exact (isOptional.offered cursor).of_ok run

/-- A call in a list of selected items. -/
def countedItems : Cursor :=
  .ofText "COUNT( Id ), Name" (some 4)

theorem call_countedItems : ∃ value after, call countedItems = .ok (some value) after := by
  have found : (match call countedItems with
      | .ok (some _) _ => true
      | .ok none _ => false
      | .error _ _ => false) = true := by
    decide +kernel
  split at found
  · rename_i value after run
    exact ⟨value, after, run⟩
  · cases found
  · cases found

theorem numeral_countedItems : ∃ after, lexeme numeral countedItems = .ok none after :=
  ⟨countedItems, rfl⟩

theorem progress_countedItems :
    (∃ value after, call countedItems = .ok (some value) after ∧ after.depth = 0 ∧
      0 < after.position ∧ after.position ≤ 17) ∧
    ∃ after, lexeme numeral countedItems = .ok none after ∧ after = countedItems := by
  obtain ⟨rules, optional⟩ := progress
  obtain ⟨value, after, run⟩ := call_countedItems
  obtain ⟨same, absent⟩ := numeral_countedItems
  have kept := rules (.optional .call) run
  refine ⟨⟨value, after, run, kept.2.1, (optional .call).2 value run, kept.2.2.2⟩, ?_⟩
  exact ⟨same, absent, (optional (.lexer .numeral)).1 absent⟩

end Grammar

end ObjectQuery
