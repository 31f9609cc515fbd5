import ObjectQuery.Grammar.Statement
import ObjectQuery.Proofs.Grammar.Condition
import ObjectQuery.Proofs.Lexical.Separable
import ObjectQuery.Proofs.Syntax.Mirror

namespace ObjectQuery

/-!
The grammar on two texts that differ in a gap between tokens. Each rule reads
both alike, or fails on both.
-/

theorem settled_segment : Settled segment :=
  (settled_quoted (.inr rfl)).orElse separable_identifier.settled

theorem settled_keywordValue {α : Type} {keyword : Keyword} (known : keyword.IsKnown) (value : α) :
    Settled (keywordValue keyword value) := by
  have same : keywordValue keyword value =
      fun chars => (keyword.length? chars).elim .absent (.found value) := by
    funext chars
    rw [keywordValue]
    cases keyword.length? chars <;> rfl
  rw [same]
  exact (Keyword.separable known value).settled

theorem settled_listItem : Settled listItem := by
  have true_ : Settled (keywordValue .trueValue (ListItem.literal (.bool true))) :=
    settled_keywordValue (.word (by decide)) _
  have false_ : Settled (keywordValue .falseValue (ListItem.literal (.bool false))) :=
    settled_keywordValue (.word (by decide)) _
  have null : Settled (keywordValue .null (ListItem.literal .null)) :=
    settled_keywordValue (.word (by decide)) _
  have words := true_.orElse (false_.orElse (null.orElse
    ((separable_parameter.settled.map .parameter).orElse
      (separable_relativeDate.settled.map .relativeDate))))
  exact (separable_moment.settled.map _).orElse ((separable_numeral.settled.map _).orElse
    (((settled_quoted (.inl rfl)).map _).orElse words))

theorem isKnown_comparisons : ∀ entry ∈ comparisons, entry.1.IsKnown := by
  simp only [comparisons, List.forall_mem_cons]
  exact ⟨.operator (by decide) (by decide), .operator (by decide) (by decide),
    .operator (by decide) (by decide), .operator (by decide) (by decide),
    .operator (by decide) (by decide), .operator (by decide) (by decide),
    .operator (by decide) (by decide), .pair (by simp [Keyword.paired]),
    .pair (by simp [Keyword.paired]), .word (by decide), .word (by decide), .word (by decide),
    .word (by decide), List.forall_mem_nil _⟩

theorem separable_comparison : Separable comparison where
  append text rest parted := by
    have same : ∀ entry ∈ comparisons, (entry.1.length? (text ++ rest)).map (entry.2, ·) =
        (entry.1.length? text).map (entry.2, ·) := fun entry member => by
      rw [Keyword.length?_parted (isKnown_comparisons entry member) parted]
    simp only [comparison, ← List.head?_filterMap, List.filterMap_congr same]
  length_le text operator count found := by
    obtain ⟨keyword, member, spelled⟩ := Grammar.exists_of_comparison found
    exact Keyword.length?_le (isKnown_comparisons _ member).isSteady spelled
  ends text operator count found := by
    obtain ⟨keyword, member, spelled⟩ := Grammar.exists_of_comparison found
    exact Keyword.isDelimited (isKnown_comparisons _ member) spelled

namespace Grammar

open ObjectQuery.Parser

variable {gap : Gap} {left right start begun bound most : Nat}

theorem comma_strides : Strides gap (charAhead ',') :=
  .charAhead .comma

theorem and_strides : Strides gap (keywordAhead .and) :=
  .keywordAhead (.word (by decide))

theorem or_strides : Strides gap (keywordAhead .or) :=
  .keywordAhead (.word (by decide))

theorem laterSegment_mirrors : Mirrors gap left right (laterSegment start) (laterSegment begun) := by
  refine Mirrors.skipBlank.bind fun _ => (Mirrors.lexeme settled_segment).bind fun found => ?_
  cases found with
  | some segment => exact .pure
  | none => exact .failFrom

theorem name_mirrors : Mirrors gap left right name name := by
  refine .get_bind fun cursor mirrored _ => (Mirrors.lexeme settled_segment).bind fun found => ?_
  cases found with
  | none => exact .pure
  | some first =>
      refine (Mirrors.charAhead .dot).bind fun more => .ite ?_ .pure
      exact (Mirrors.separated (.charAhead .dot) fun _ _ _ _ => laterSegment_mirrors).bind
        fun _ => .pure

theorem aliasName_mirrors : Mirrors gap left right aliasName aliasName := by
  refine .get_bind fun cursor mirrored abreast => Mirrors.skipBlank.bind fun _ => ?_
  refine .get_bind fun ahead mirroredAhead later => ?_
  dsimp only
  rw [later.aligned.isReserved, later.aligned.isAhead]
  exact .ite (.set_bind abreast .pure) (.lexeme separable_identifier.settled)

theorem requiredName_mirrors {fault : SyntaxFault} :
    Mirrors gap left right (requiredName fault) (requiredName fault) := by
  refine Mirrors.skipBlank.bind fun _ => Mirrors.isReservedAhead.bind fun reserved => ?_
  refine .ite .fail_bind (name_mirrors.bind fun found => ?_)
  cases found with
  | some path => exact .pure
  | none => exact .fail

theorem requiredListItem_mirrors :
    Mirrors gap left right (requiredListItem start) (requiredListItem begun) := by
  refine Mirrors.skipBlank.bind fun _ => (Mirrors.lexeme settled_listItem).bind fun found => ?_
  cases found with
  | some item => exact .pure
  | none => exact .failFrom

theorem valueList_mirrors : Mirrors gap left right valueList valueList := by
  refine .get_bind fun cursor mirrored _ => (Mirrors.expectChar .opening).bind fun _ => ?_
  refine Mirrors.enter.bind fun _ => ?_
  refine (Mirrors.separated comma_strides fun _ _ _ _ => requiredListItem_mirrors).bind
    fun items => ?_
  refine Mirrors.skipBlank.bind fun _ => (Mirrors.takeChar .closing).bind fun closed => ?_
  exact .ite (Mirrors.leave.bind fun _ => .pure) .failFrom_bind

section

variable {call other : Parser (Option (Field Query))}

theorem argument_mirrors (calls : Mirrors gap left right call other) :
    Mirrors gap left right (argument call) (argument other) := by
  refine calls.bind fun found => ?_
  cases found with
  | some field => exact .pure
  | none =>
      refine (Mirrors.lexeme settled_listItem).bind fun item => ?_
      cases item with
      | some item => exact .pure
      | none =>
          refine name_mirrors.bind fun path => ?_
          cases path with
          | some path => exact .pure
          | none => exact .fail

theorem argumentsWith_mirrors (calls : MirrorsBelow gap left right call other) :
    Mirrors gap left right (argumentsWith call start) (argumentsWith other begun) := by
  have item : MirrorsBelow gap left right
      (do
        skipBlank
        argument call)
      (do
        skipBlank
        argument other) :=
    fun fewer left_le less right_le =>
      Mirrors.skipBlank.bind fun _ => argument_mirrors (calls fewer left_le less right_le)
  refine Mirrors.skipBlank.bind fun _ => (Mirrors.takeChar .closing).bind fun closed => .ite .pure ?_
  refine (Mirrors.separated comma_strides item).bind fun arguments => Mirrors.skipBlank.bind fun _ => ?_
  exact (Mirrors.takeChar .closing).bind fun closed => .ite .pure .failFrom_bind

end

/-- The bounds of two calls may differ, where neither is less than what is left to read. -/
theorem callWithin_mirrors :
    MirrorsBelow gap bound most (callWithin bound) (callWithin most) := by
  intro left left_le right right_le
  induction bound generalizing left right most with
  | zero => exact .of_nothing (.inl (Nat.le_zero.1 left_le))
  | succ bound induction =>
      cases most with
      | zero => exact .of_nothing (.inr (Nat.le_zero.1 right_le))
      | succ most =>
          refine .get_bind fun cursor mirrored abreast => ?_
          refine (Mirrors.lexeme separable_identifier.settled).bind fun found => ?_
          cases found with
          | none => exact .pure
          | some name =>
              refine Mirrors.skipBlank.bind fun _ => ?_
              refine .strides_bind (.takeChar .opening) ?_ (.set_bind abreast .pure)
              have inner : MirrorsBelow gap (left - 1) (right - 1) (callWithin bound)
                  (callWithin most) := fun fewer fewer_le less less_le =>
                induction fewer (by omega) less (by omega)
              refine Mirrors.enter.bind fun _ => (argumentsWith_mirrors inner).bind fun arguments => ?_
              exact Mirrors.leave.bind fun _ => .pure

theorem call_mirrors : Mirrors gap left right call call :=
  .get_bind_here fun _ _ _ => callWithin_mirrors _ (Nat.le_refl _) _ (Nat.le_refl _)

theorem isSubqueryAhead_mirrors : Mirrors gap left right isSubqueryAhead isSubqueryAhead := by
  refine .get_bind fun cursor mirrored abreast => ?_
  have same := abreast.aligned.head?_iff .opening
  split
  · rename_i rest shape
    have head : cursor.ahead.head? = some '(' := by rw [shape]; rfl
    obtain ⟨others, shapeToo⟩ := List.head?_eq_some_iff.1 (same.1 head)
    have inside := abreast.aligned.tail .opening head
    rw [shape, shapeToo, List.drop_one, List.drop_one, List.tail_cons, List.tail_cons] at inside
    rw [shapeToo]
    rcases inside.blankLength with ⟨count, more, blank, blankToo, aligned, _⟩ |
      ⟨start, begun, blank, blankToo⟩
    · have known : Keyword.select.IsKnown := .word (by decide)
      simp only [blank, blankToo]
      rw [(aligned.keyword known).1]
      exact .pure
    · simp only [blank, blankToo]
      exact .of_failing (fun cursor => ⟨_, cursor, rfl⟩) fun cursor => ⟨_, cursor, rfl⟩
  · rename_i unopened
    split
    · rename_i rest shape
      have head := same.2 (by rw [shape]; rfl)
      obtain ⟨others, shapeToo⟩ := List.head?_eq_some_iff.1 head
      exact absurd shapeToo (unopened others)
    · exact .pure

/-- What follows the opening bracket of conditions in brackets, begun at `start`. -/
def groupBody (conditions : Parser (List (Condition (Field Query)))) (clause : ConditionClause)
    (start : Nat) : Parser (List (Condition (Field Query))) := do
  enter
  let inner ← conditions
  skipBlank
  unless ← takeChar ')' do
    failFrom (.badClause clause.clause) start
  leave
  return inner

theorem groupBody_mirrors {conditions other : Parser (List (Condition (Field Query)))}
    (mirrors : Mirrors gap left right conditions other) (clause : ConditionClause) :
    Mirrors gap left right (groupBody conditions clause start) (groupBody other clause begun) := by
  refine Mirrors.enter.bind fun _ => mirrors.bind fun inner => Mirrors.skipBlank.bind fun _ => ?_
  refine (Mirrors.takeChar .closing).bind fun closed => ?_
  exact .ite (Mirrors.leave.bind fun _ => .pure) .failFrom_bind

theorem leftOperand_mirrors (clause : ConditionClause) :
    Mirrors gap left right (leftOperand clause) (leftOperand clause) := by
  refine call_mirrors.bind fun found => ?_
  cases found with
  | some field => exact .pure
  | none =>
      cases clause with
      | having => exact .fail
      | filter =>
          refine name_mirrors.bind fun path => ?_
          cases path with
          | some path => exact .pure
          | none => exact .fail

theorem rightNameOrList_mirrors (clause : ConditionClause) :
    Mirrors gap left right (rightNameOrList clause) (rightNameOrList clause) := by
  have listed : Mirrors gap left right
      (do
        if ← isAhead '(' then
          return .ofKind (.literal (← valueList))
        else
          fail (.badComparison clause.clause .right) : Parser (Field Query))
      (do
        if ← isAhead '(' then
          return .ofKind (.literal (← valueList))
        else
          fail (.badComparison clause.clause .right)) :=
    (Mirrors.isAhead .opening).bind fun bracket =>
      .ite (valueList_mirrors.bind fun _ => .pure) .fail
  unfold rightNameOrList
  refine .ite (name_mirrors.bind fun path => ?_) listed
  cases path with
  | some path => exact .pure
  | none => exact listed

section

variable {subquery other : Parser Query} (inner : MirrorsBelow gap left right subquery other)

include inner

theorem rightOperand_mirrors (clause : ConditionClause) :
    Mirrors gap left right (rightOperand subquery clause) (rightOperand other clause) := by
  refine (Mirrors.lexeme settled_listItem).bind fun item => ?_
  cases item with
  | some item => exact .pure
  | none =>
      refine isSubqueryAhead_mirrors.bind fun nested => ?_
      refine .ite (inner.here.bind fun _ => .pure) (call_mirrors.bind fun found => ?_)
      cases found with
      | some field => exact .pure
      | none => exact rightNameOrList_mirrors clause

theorem comparisonTerm_mirrors (clause : ConditionClause) :
    Mirrors gap left right (comparisonTerm subquery clause) (comparisonTerm other clause) := by
  refine Mirrors.isReservedAhead.bind fun reserved => .ite .fail_bind ?_
  refine (leftOperand_mirrors clause).bind fun left => Mirrors.skipBlank.bind fun _ => ?_
  refine (Mirrors.lexeme separable_comparison.settled).bind fun found => ?_
  cases found with
  | none => exact .fail
  | some operator =>
      exact Mirrors.skipBlank.bind fun _ => (rightOperand_mirrors inner clause).bind fun _ => .pure

omit inner in
theorem negation_strides : Strides gap negation where
  mirrors _ _ := (Mirrors.takeKeyword (.word (by decide))).bind fun _ =>
    .ite (Mirrors.skipBlank.bind fun _ => .pure) .pure
  consumes := Consumes.takeKeyword.beforeBlank

omit inner in
theorem negation_atEnd (cursor : Cursor) (atEnd : cursor.ahead = []) :
    negation cursor = .ok false cursor := by
  have none : takeKeyword .not cursor = .ok false cursor := by
    rw [takeKeyword_run, atEnd]
    rfl
  rw [negation, run_bind none]
  rfl

theorem term_mirrors {conditions alike : Parser (List (Condition (Field Query)))}
    (mirrors : Mirrors gap (left - 1) (right - 1) conditions alike) (clause : ConditionClause) :
    Mirrors gap left right (term subquery conditions clause) (term other alike clause) := by
  refine Mirrors.skipBlank.bind fun _ => ?_
  refine (Mirrors.count negation_strides negation_atEnd).bind fun negations => ?_
  have comparison : Mirrors gap left right
      (comparisonTerm subquery clause >>= fun inner => pure (Condition.negatedTimes negations inner))
      (comparisonTerm other clause >>= fun inner => pure (Condition.negatedTimes negations inner)) :=
    (comparisonTerm_mirrors inner clause).bind fun _ => .pure
  have group (start begun : Nat) : Mirrors gap (left - 1) (right - 1)
      (groupBody conditions clause start >>= fun inner =>
        pure (Condition.negatedTimes negations inner))
      (groupBody alike clause begun >>= fun inner =>
        pure (Condition.negatedTimes negations inner)) :=
    (groupBody_mirrors mirrors clause).bind fun _ => .pure
  have both := Mirrors.bracketed .opening group comparison
  exact both

/-- The bounds of two lists of conditions may differ, as those of calls may. -/
theorem conditionsWithin_mirrors (clause : ConditionClause) (left_le : left ≤ bound)
    (right_le : right ≤ most) :
    Mirrors gap left right (conditionsWithin subquery clause bound)
      (conditionsWithin other clause most) := by
  induction bound generalizing left right most with
  | zero => exact .of_nothing (.inl (Nat.le_zero.1 left_le))
  | succ bound induction =>
      cases most with
      | zero => exact .of_nothing (.inr (Nat.le_zero.1 right_le))
      | succ most =>
          have terms : MirrorsBelow gap left right
              (term subquery (conditionsWithin subquery clause bound) clause)
              (term other (conditionsWithin other clause most) clause) := by
            intro fewer fewer_le less less_le
            have lower := inner.mono fewer_le less_le
            refine term_mirrors lower (induction ?_ ?_ ?_) clause
            · exact lower.mono (Nat.sub_le _ _) (Nat.sub_le _ _)
            · omega
            · omega
          have conjunctions : MirrorsBelow gap left right
              (do
                let terms ← separated (keywordAhead .and)
                  (term subquery (conditionsWithin subquery clause bound) clause)
                return Condition.joined .and terms)
              (do
                let terms ← separated (keywordAhead .and)
                  (term other (conditionsWithin other clause most) clause)
                return Condition.joined .and terms) :=
            fun fewer fewer_le less less_le =>
              (Mirrors.separated and_strides (terms.mono fewer_le less_le)).bind fun _ => .pure
          exact (Mirrors.separated or_strides conjunctions).bind fun _ => .pure

theorem conditionsWith_mirrors (clause : ConditionClause) :
    Mirrors gap left right (conditionsWith subquery clause) (conditionsWith other clause) :=
  .get_bind_here fun _ _ abreast =>
    conditionsWithin_mirrors (inner.mono abreast.below abreast.belowToo) clause (Nat.le_refl _)
      (Nat.le_refl _)

theorem selectItemWith_mirrors :
    Mirrors gap left right (selectItemWith subquery) (selectItemWith other) := by
  have aliased (field : Field Query) : Mirrors gap left right
      (aliasName >>= fun aliasName => pure { field with aliasName })
      (aliasName >>= fun aliasName => pure { field with aliasName }) :=
    aliasName_mirrors.bind fun _ => .pure
  refine Mirrors.skipBlank.bind fun _ => Mirrors.isReservedAhead.bind fun reserved => ?_
  refine .ite .fail_bind (isSubqueryAhead_mirrors.bind fun nested => ?_)
  refine .ite (inner.here.bind fun _ => aliased _) (call_mirrors.bind fun found => ?_)
  cases found with
  | some field => exact aliased field
  | none =>
      refine name_mirrors.bind fun path => ?_
      cases path with
      | some path => exact aliased _
      | none => exact .fail_bind

theorem conditionClause_mirrors (clause : ConditionClause) :
    Mirrors gap left right (conditionClause subquery clause) (conditionClause other clause) := by
  have conditions := conditionsWith_mirrors inner clause
  refine (Mirrors.isAhead .opening).bind fun bracket => .ite conditions ?_
  exact Mirrors.expectBlank.bind fun _ => conditions

end

theorem object_mirrors : Mirrors gap left right object object :=
  requiredName_mirrors.bind fun _ => aliasName_mirrors.bind fun _ => .pure

theorem groupKey_mirrors : Mirrors gap left right groupKey groupKey :=
  requiredName_mirrors.bind fun _ => .pure

theorem eitherWord_mirrors {first second : Keyword} (known : first.IsKnown)
    (knownToo : second.IsKnown) :
    Mirrors gap left right (eitherWord first second) (eitherWord first second) :=
  (Mirrors.keywordAhead known).bind fun _ =>
    .ite .pure ((Mirrors.keywordAhead knownToo).bind fun _ => .pure)

theorem orderKey_mirrors : Mirrors gap left right orderKey orderKey := by
  refine requiredName_mirrors.bind fun _ => ?_
  refine (eitherWord_mirrors (.word (by decide)) (.word (by decide))).bind fun _ => ?_
  refine (eitherWord_mirrors (.pair ?_) (.pair ?_)).bind fun _ => .pure
  · simp [Keyword.paired]
  · simp [Keyword.paired]

theorem rowBound_mirrors (clause : Clause) :
    Mirrors gap left right (rowBound clause) (rowBound clause) := by
  refine Mirrors.expectBlank.bind fun _ => ?_
  refine (Mirrors.lexeme separable_parameter.settled).bind fun found => ?_
  cases found with
  | some name => exact .pure
  | none =>
      refine .get_bind fun cursor mirrored _ => ?_
      refine (Mirrors.lexeme separable_numeral.settled).bind fun found => ?_
      split
      · exact .ite .pure .failFrom
      · exact .failFrom

theorem addRowBound_mirrors (bounds : RowBounds) :
    Mirrors gap left right (addRowBound bounds) (addRowBound bounds) := by
  have unless_ (given : Bool) {keyword : Keyword} (known : keyword.IsKnown) :
      Mirrors gap left right (pure given <&&> keywordAhead keyword)
        (pure given <&&> keywordAhead keyword) :=
    Mirrors.bind .pure fun absent => by
      cases absent with
      | true => exact .keywordAhead known
      | false => exact .pure
  refine (unless_ _ (.word (by decide))).bind fun offset => ?_
  refine .ite ((rowBound_mirrors _).bind fun _ => .pure) ?_
  refine (unless_ _ (.word (by decide))).bind fun limit => ?_
  exact .ite ((rowBound_mirrors _).bind fun _ => .pure) .pure

theorem rowBounds_mirrors : Mirrors gap left right rowBounds rowBounds :=
  (addRowBound_mirrors _).bind fun _ => .ite .pure (addRowBound_mirrors _)

theorem partner_mirrors {keyword : Keyword} (known : keyword.IsKnown) :
    Mirrors gap left right (partner keyword) (partner keyword) := by
  refine .get_bind fun cursor mirrored _ => (Mirrors.charAhead .comma).bind fun more => ?_
  refine .ite (Mirrors.skipBlank.bind fun _ => (Mirrors.takeKeyword known).bind fun taken => ?_) .pure
  exact .ite .pure .failFrom_bind

theorem updateUses_mirrors : Mirrors gap left right updateUses updateUses := by
  refine (Mirrors.keywordAhead (.word (by decide))).bind fun tracking => .ite ?_ ?_
  · exact (partner_mirrors (.word (by decide))).bind fun _ => .pure
  · refine (Mirrors.keywordAhead (.word (by decide))).bind fun viewstat => .ite ?_ .pure
    exact (partner_mirrors (.word (by decide))).bind fun _ => .pure

theorem access_mirrors : Mirrors gap left right access access := by
  refine .get_bind fun cursor mirrored _ => Mirrors.expectBlank.bind fun _ => ?_
  refine (Mirrors.takeKeyword (.word (by decide))).bind fun view => .ite ?_ ?_
  · exact (partner_mirrors (.word (by decide))).bind fun _ => .pure
  refine (Mirrors.takeKeyword (.word (by decide))).bind fun reference => .ite ?_ ?_
  · exact (partner_mirrors (.word (by decide))).bind fun _ => .pure
  refine (Mirrors.takeKeyword (.word (by decide))).bind fun update => ?_
  exact .ite updateUses_mirrors .failFrom

theorem clauseOr_mirrors {α : Type} {keyword : Keyword} (known : keyword.IsKnown) {absent : α}
    {content other : Parser α} (mirrors : Mirrors gap left right content other) :
    Mirrors gap left right (clauseOr keyword absent content) (clauseOr keyword absent other) :=
  (Mirrors.keywordAhead known).bind fun _ => .ite mirrors .pure

theorem statementWith_mirrors {subquery other : Parser Query}
    (inner : MirrorsBelow gap left right subquery other) :
    Mirrors gap left right (statementWith subquery) (statementWith other) := by
  have items : MirrorsBelow gap left right (selectItemWith subquery) (selectItemWith other) :=
    fun _ left_le _ right_le => selectItemWith_mirrors (inner.mono left_le right_le)
  refine (Mirrors.takeKeyword (.word (by decide))).bind fun begun => .ite ?_ .fail_bind
  refine Mirrors.expectBlank.bind fun _ => ?_
  refine (Mirrors.separated comma_strides items).bind fun fields => ?_
  refine (Mirrors.keywordAhead (.word (by decide))).bind fun listed => .ite ?_ .fail_bind
  refine (Mirrors.separated comma_strides fun _ _ _ _ => object_mirrors).bind fun objects => ?_
  refine (clauseOr_mirrors (.word (by decide)) (conditionClause_mirrors inner .filter)).bind
    fun filter => ?_
  refine (clauseOr_mirrors (.pair (by simp [Keyword.paired]))
    (.separated comma_strides fun _ _ _ _ => groupKey_mirrors)).bind fun groupBy => ?_
  refine (clauseOr_mirrors (.word (by decide)) (conditionClause_mirrors inner .having)).bind
    fun having => ?_
  refine (clauseOr_mirrors (.pair (by simp [Keyword.paired]))
    (.separated comma_strides fun _ _ _ _ => orderKey_mirrors)).bind fun orderBy => ?_
  refine rowBounds_mirrors.bind fun bounds => ?_
  exact (clauseOr_mirrors (.word (by decide)) access_mirrors).bind fun _ => .pure

/-- The bounds of two queries in brackets may differ, as those of calls may. -/
theorem subqueryWithin_mirrors :
    MirrorsBelow gap bound most (subqueryWithin bound) (subqueryWithin most) := by
  intro left left_le right right_le
  induction bound generalizing left right most with
  | zero => exact .of_nothing (.inl (Nat.le_zero.1 left_le))
  | succ bound induction =>
      cases most with
      | zero => exact .of_nothing (.inr (Nat.le_zero.1 right_le))
      | succ most =>
          have inner : MirrorsBelow gap (left - 1) (right - 1) (subqueryWithin bound)
              (subqueryWithin most) := fun fewer fewer_le less less_le =>
            induction fewer (by omega) less (by omega)
          refine .bind_consumed (.expectChar .opening) (.expectChar _ _) (fun _ _ => ?_)
            fun _ never => absurd trivial never
          refine Mirrors.enter.bind fun _ => Mirrors.skipBlank.bind fun _ => ?_
          refine (statementWith_mirrors inner).bind fun statement => Mirrors.skipBlank.bind fun _ => ?_
          refine (Mirrors.takeChar .closing).bind fun closed => ?_
          exact .ite (Mirrors.leave.bind fun _ => .pure) .fail_bind

theorem subquery_mirrors : Mirrors gap left right subquery subquery :=
  .get_bind_here fun _ _ _ => subqueryWithin_mirrors _ (Nat.le_refl _) _ (Nat.le_refl _)

theorem query_mirrors : Mirrors gap left right query query := by
  refine Mirrors.skipBlank.bind fun _ => ?_
  refine (statementWith_mirrors fun _ _ _ _ => subquery_mirrors).bind fun statement => ?_
  refine Mirrors.skipBlank.bind fun _ => .get_bind fun cursor mirrored abreast => ?_
  have same : cursor.atEnd = mirrored.atEnd := by
    rw [Bool.eq_iff_iff, Cursor.atEnd, Cursor.atEnd, List.isEmpty_iff, List.isEmpty_iff]
    exact abreast.aligned.eq_nil_iff
  rw [same]
  exact .ite .pure .fail_bind

end Grammar

/-!
Comments between the tokens of a query. A comment may stand wherever a blank may
and the query is read alike, unless the comment parts the words of a keyword.
-/

variable {comment rest text others piece : List Char}

/-- What begins so before a blank begins so before a comment. -/
theorem Bars.commented {char : Char} (bars : Bars (char :: (others ++ ' ' :: rest))) :
    Bars (char :: (others ++ (comment ++ rest))) := by
  cases others with
  | nil =>
      cases bars with
      | text => exact .text _
      | name => exact .name _
  | cons next others =>
      cases bars with
      | line => exact .line _
      | block => exact .block _
      | text => exact .text _
      | name => exact .name _

theorem IsPiece.spaced (isComment : IsComment rest comment)
    (isPiece : IsPiece (others ++ (comment ++ rest)) piece) : IsPiece (others ++ ' ' :: rest) piece := by
  have bars := isComment.bars rest
  cases isPiece with
  | mark apart unbarred => exact .mark apart fun bars => unbarred bars.commented
  | word some_ parts ends =>
      refine .word some_ parts ?_
      cases others with
      | nil => rfl
      | cons char others => exact ends
  | comment inner =>
      cases others with
      | cons char others =>
          cases inner with
          | line unbroken ends => exact .comment (.line unbroken ends)
          | block closed => exact .comment (.block closed)
      | nil =>
          cases inner with
          | block closed => exact .comment (.block closed)
          | line unbroken ends =>
              -- the comment would begin with the end of a line
              have all : haltChars.all (!Blank.isLineEnd ·) = true := by decide
              obtain ⟨first, more, shape, halting⟩ := (Halts.bars bars).exists_cons
              have lineEnd := ends first (by rw [List.nil_append, shape]; rfl)
              have inLine := List.all_eq_true.1 all first halting
              rw [lineEnd] at inLine
              cases inLine
  | value closed => exact .value closed
  | name closed => exact .name closed

/-- What is scanned up to a comment is scanned up to a blank in its place. -/
theorem Scans.spaced (isComment : IsComment rest comment) (scans : Scans (comment ++ rest) text) :
    Scans (' ' :: rest) text := by
  induction scans with
  | nil => exact .nil
  | cons first _ induction => exact .cons (first.spaced isComment) induction

namespace Gap

variable {gap : Gap}

theorem seam_commented (scans : Scans gap.commented text) : Seam text gap.commented where
  halts := .bars (gap.isComment.bars gap.rest)
  unquoted := by
    obtain ⟨comment, rest, isComment⟩ := gap
    cases isComment <;> exact ⟨nofun, nofun⟩
  scans := scans
  unpaired := .of_bars (gap.isComment.bars gap.rest)

theorem seam_spaced (scans : Scans gap.commented text) (unpaired : Unpaired text gap.spaced) :
    Seam text gap.spaced where
  halts := .space gap.rest
  unquoted := ⟨nofun, nofun⟩
  scans := scans.spaced gap.isComment
  unpaired := unpaired

end Gap

namespace Query

/-- A comment between two tokens is read as a blank is, unless it parts the words of a keyword. -/
theorem ofText_comment {before comment after : String}
    (isComment : IsComment after.toList comment.toList)
    (scans : Scans (comment ++ after).toList before.toList)
    (unpaired : Unpaired before.toList (" " ++ after).toList) (limit : Option Nat) :
    (ofText (before ++ comment ++ after) limit).toOption =
      (ofText (before ++ " " ++ after) limit).toOption := by
  let gap : Gap := ⟨comment.toList, after.toList, isComment⟩
  rw [String.toList_append] at scans unpaired
  have commented : (before ++ comment ++ after).toList = before.toList ++ gap.commented := by
    simp only [String.toList_append, List.append_assoc]
    rfl
  have spaced : (before ++ " " ++ after).toList = before.toList ++ gap.spaced := by
    simp only [String.toList_append, List.append_assoc]
    rfl
  have abreast : (Cursor.ofText (before ++ comment ++ after) limit).Abreast gap _ _
      (Cursor.ofText (before ++ " " ++ after) limit) := {
    aligned := by
      change gap.Aligned (before ++ comment ++ after).toList (before ++ " " ++ after).toList
      rw [commented, spaced]
      exact .before (gap.seam_commented scans) (gap.seam_spaced scans unpaired)
    depth := rfl
    limit := rfl
    below := Nat.lt_succ_self _
    belowToo := Nat.lt_succ_self _ }
  rw [ofText, ofText]
  rcases Grammar.query_mirrors.runs abreast with ⟨value, after, last, run, runToo, _⟩ |
    ⟨⟨error, after, run⟩, errorToo, last, runToo⟩
  · rw [run, runToo]
  · rw [run, runToo]
    rfl

theorem ofText_keyComment :
    (ofText "SELECT Id/* key */FROM Contact").toOption = (ofText "SELECT Id FROM Contact").toOption ∧
      (ofText "SELECT Id FROM Contact").toOption.isSome = true := by
  have isComment : IsComment "FROM Contact".toList "/* key */".toList := .block rfl
  have scans : Scans ("/* key */" ++ "FROM Contact").toList "SELECT Id".toList :=
    .of_marks (by decide) (by decide)
  have unpaired : Unpaired "SELECT Id".toList (" " ++ "FROM Contact").toList :=
    .of_all (by decide +kernel)
  exact ⟨ofText_comment isComment scans unpaired _, by decide +kernel⟩

/-- A comment between the two words of a keyword is not taken for a blank. -/
theorem ofText_ne_of_partedOrder :
    IsComment "BY Id".toList "/**/".toList ∧
    Scans "/**/BY Id".toList "SELECT Id FROM Contact ORDER".toList ∧
    (ofText "SELECT Id FROM Contact ORDER/**/BY Id").toOption = none ∧
    (ofText "SELECT Id FROM Contact ORDER BY Id").toOption.isSome = true :=
  ⟨.block rfl, .of_marks (by decide) (by decide), by decide +kernel, by decide +kernel⟩

end Query

end ObjectQuery
