import ObjectQuery.Proofs.Grammar.Clause
import ObjectQuery.Proofs.Grammar.Statement

namespace ObjectQuery

/-! Queries that are read from plain texts print texts from which they are read again. -/

/-- Nothing is known of the statement but what its clauses say. -/
def Statement.IsBare (statement : Statement Query) : Prop :=
  statement = {
    fields := statement.fields, objects := statement.objects, filter := statement.filter
    groupBy := statement.groupBy, having := statement.having, orderBy := statement.orderBy
    bounds := statement.bounds, access := statement.access
    isAggregation := !statement.groupBy.isEmpty }

/-- A statement as it is read from a plain text. -/
structure Statement.IsRead (statement : Statement Query) : Prop where
  someFields : statement.fields ≠ []
  fields : ∀ field ∈ statement.fields, field.IsSelected
  someObjects : statement.objects ≠ []
  objects : ∀ object ∈ statement.objects, object.IsRead
  filter : Grammar.AreConditions .filter statement.filter
  groupBy : ∀ key ∈ statement.groupBy, key.IsKey
  having : Grammar.AreConditions .having statement.having
  orderBy : ∀ order ∈ statement.orderBy, order.field.IsKey
  bounds : statement.bounds.AreRead
  access : statement.access = {} ∨ statement.access.IsRead
  bare : statement.IsBare

/-- A query as it is read from a plain text, like the queries nested in it. -/
abbrev Query.IsRead : Query → Prop :=
  Throughout Statement.IsRead

theorem Field.IsSelected.notSelected_eq {field : Field Query} (isSelected : field.IsSelected) :
    field.notSelected = false := by
  cases isSelected <;> rfl

theorem Condition.forall_operands_of_nests {property : Query → Prop}
    {conditions : List (Condition (Field Query))}
    (nest : ∀ entry ∈ conditions, entry.Nests property) :
    ∀ field ∈ conditions.filterMap Condition.operand?, field.Nests property := by
  intro field member query nested
  obtain ⟨entry, given, operand⟩ := List.mem_filterMap.1 member
  exact nest entry given query (Option.bind_eq_some_iff.2 ⟨field, operand, nested⟩)

theorem listText_blank {α : Type} {values : List α} {spell : α → String} (some : values ≠ [])
    (solid : ∀ value ∈ values, ∀ rest, blankLength ((spell value).toList ++ rest) = .ok 0)
    (rest : List Char) : blankLength (listText spell values ++ rest) = .ok 0 := by
  obtain ⟨first, others, rfl⟩ := List.exists_cons_of_ne_nil some
  obtain ⟨tail, shown, -⟩ := exists_listText_append spell first others rest
  rw [shown]
  exact solid first List.mem_cons_self tail

namespace Grammar

open ObjectQuery.Parser

variable {bound : Nat} {rest : List Char}

section Takes

variable {subquery : Parser Query} {statement : Statement Query}

/-- A statement is taken up where its clauses are, each before those after it. -/
theorem statementWith_takes_of
    {fields objects filter groupBy having orderBy bounds access : List Char} (bare : statement.IsBare)
    (solid : ∀ rest, blankLength (fields ++ rest) = .ok 0)
    (fieldsTaken : (selectItemsWith subquery).Takes bound fields statement.fields
      (((' ' :: "FROM".toList) ++ (([' '] ++ objects) ++
        (filter ++ (groupBy ++ (having ++ (orderBy ++ (bounds ++ access))))))) ++ rest))
    (objectsTaken : Grammar.objects.Takes bound ([' '] ++ objects) statement.objects
      ((filter ++ (groupBy ++ (having ++ (orderBy ++ (bounds ++ access))))) ++ rest))
    (filterTaken : (clauseOr .filter [] (conditionClause subquery .filter)).Takes bound filter
      statement.filter ((groupBy ++ (having ++ (orderBy ++ (bounds ++ access)))) ++ rest))
    (groupByTaken : (clauseOr .groupBy [] groupKeys).Takes bound groupBy statement.groupBy
      ((having ++ (orderBy ++ (bounds ++ access))) ++ rest))
    (havingTaken : (clauseOr .having [] (conditionClause subquery .having)).Takes bound having
      statement.having ((orderBy ++ (bounds ++ access)) ++ rest))
    (orderByTaken : (clauseOr .orderBy [] orderKeys).Takes bound orderBy statement.orderBy
      ((bounds ++ access) ++ rest))
    (boundsTaken : rowBounds.Takes bound bounds statement.bounds (access ++ rest))
    (accessTaken : (clauseOr .access {} Grammar.access).Takes bound access statement.access rest) :
    (statementWith subquery).Takes bound
      ("SELECT".toList ++ ([' '] ++ (fields ++ ((' ' :: "FROM".toList) ++ (([' '] ++ objects) ++
        (filter ++ (groupBy ++ (having ++ (orderBy ++ (bounds ++ access))))))))))
      statement rest := by
  have select (following : List Char) :
      (takeKeyword .select).Takes bound "SELECT".toList true (' ' :: following) :=
    .takeKeyword (Closed.length?_spelled (by simp [Keyword.reserved]) following)
  have blank (following : List Char) :
      (expectBlank .badSelectItem).Takes bound [' '] ⟨⟩ (fields ++ following) :=
    .expectBlank (blankLength_space (solid following)) (List.cons_ne_nil _ _)
  have objectsAhead (following : List Char) :
      (keywordAhead .objects).Takes bound (' ' :: "FROM".toList) true (' ' :: following) :=
    Closed.keywordAhead_spelled (by simp [Keyword.reserved]) bound following
  refine (select _).bind ?_
  refine Takes.bind (by simpa using blank _) ?_
  refine fieldsTaken.bind ((objectsAhead _).bind (objectsTaken.bind (filterTaken.bind ?_)))
  refine groupByTaken.bind (havingTaken.bind (orderByTaken.bind (boundsTaken.bind ?_)))
  exact accessTaken.last (bare ▸ .pure _ _)

/-- The text of a statement is taken up, where those of the queries in it are. -/
theorem statementWith_takes (isRead : statement.IsRead) (printable : statement.IsPrintable)
    (nested : ∀ query ∈ statement.nested, subquery.TakesQuery bound query) (ends : Closed [] rest) :
    (statementWith subquery).Takes bound (Query.render ⟨statement⟩).toList statement rest := by
  obtain ⟨fieldsNest, filterNest, havingNest⟩ := (Statement.forall_nested_iff _).1 nested
  have operands {conditions : List (Condition (Field Query))}
      (nest : ∀ entry ∈ conditions, entry.Nests (subquery.TakesQuery bound))
      (subset : conditions.filterMap Condition.operand? ⊆ statement.everyField) :
      ∀ field ∈ conditions.filterMap Condition.operand?,
        field.IsPrintable ∧ field.Nests (subquery.TakesQuery bound) :=
    fun field member => ⟨printable field (subset member),
      Condition.forall_operands_of_nests nest field member⟩
  obtain ⟨access, shown, accessTaken⟩ := accessOr_takes isRead.access ends bound
  -- From the last clause on, each closes what stands before it.
  have accessEnds := ends.of_clauseChars .access statement.access.isEmpty access
  have offsetEnds := (accessEnds.of_rowBound .limit statement.bounds.limit).of_rowBound .offset
    statement.bounds.offset
  have orderEnds := offsetEnds.of_clauseChars .orderBy statement.orderBy.isEmpty
    (listText Query.renderOrderKey statement.orderBy)
  have havingEnds := orderEnds.of_clauseChars .having statement.having.isEmpty
    (Query.renderConditions statement.having).toList
  have groupEnds := havingEnds.of_clauseChars .groupBy statement.groupBy.isEmpty
    (listText Query.renderField statement.groupBy)
  have filterEnds := groupEnds.of_clauseChars .filter statement.filter.isEmpty
    (Query.renderConditions statement.filter).toList
  rw [Query.toList_render statement fun field member => (isRead.fields field member).notSelected_eq,
    shown]
  refine statementWith_takes_of isRead.bare ?_ ?_ ?_ ?_ ?_ ?_ ?_ ?_ accessTaken
  · exact listText_blank isRead.someFields fun field member => (isRead.fields field member).blank
  · have objectsEnds (following : List Char) :
        Closed [.objects] (' ' :: (Keyword.objects.spelled ++ ' ' :: following)) :=
      .clause (by simp [Keyword.reserved]) List.mem_cons_self following
    refine selectItemsWith_takes isRead.someFields isRead.fields ?_ fieldsNest (objectsEnds _)
    intro field member
    exact printable field (by simp only [Statement.everyField, List.mem_append, member, true_or])
  · simp only [List.append_assoc]
    exact objects_takes isRead.someObjects isRead.objects filterEnds
  · simp only [List.append_assoc]
    refine conditionsOr_takes (by simp [Keyword.reserved]) isRead.filter (operands filterNest ?_)
      groupEnds (groupEnds.keywordAhead (by decide) (by decide) bound)
    intro field member
    simp only [Statement.everyField, List.mem_append, member, true_or, or_true]
  · simp only [List.append_assoc]
    exact groupKeysOr_takes isRead.groupBy havingEnds
  · simp only [List.append_assoc]
    refine conditionsOr_takes (by simp [Keyword.reserved]) isRead.having (operands havingNest ?_)
      orderEnds (orderEnds.keywordAhead (by decide) (by decide) bound)
    intro field member
    simp only [Statement.everyField, List.mem_append, member, true_or, or_true]
  · simp only [List.append_assoc]
    exact orderKeysOr_takes isRead.orderBy offsetEnds
  · exact rowBounds_takes isRead.bounds accessEnds

/-- A query in brackets is taken up, where it is not longer than queries may be deep. -/
theorem subqueryWithin_takes (most : Nat) {query : Query} (isRead : query.IsRead)
    (printable : query.IsPrintable) : (subqueryWithin most).TakesQuery most query := by
  intro rest
  induction most generalizing query rest with
  | zero => exact .zero
  | succ most induction =>
      obtain ⟨statement⟩ := query
      have noBlank : skipBlank.Takes most [] ⟨⟩
          ((Query.render ⟨statement⟩).toList ++ (')' :: rest)) := by
        obtain ⟨more, shown⟩ := Query.exists_render_eq ⟨statement⟩
        rw [shown]
        exact .skipBlank (blankLength_solid (by decide) _)
      have inner : (statementWith (subqueryWithin most)).Takes most
          (Query.render ⟨statement⟩).toList statement (')' :: rest) :=
        statementWith_takes isRead.own printable.own
          (fun nested member following =>
            induction (isRead.nested nested member) (printable.nested nested member) following)
          (.closing rest)
      have noMore : skipBlank.Takes most [] ⟨⟩ ([')'] ++ rest) :=
        .skipBlank (blankLength_solid (by decide) rest)
      refine .opens (.expectChar '(' _ _) rfl ?_
      refine Closes.step (by simpa using noBlank) (Closes.bind inner (.step noMore ?_))
      exact .last (.takeChar ')' rest) (.leave (.pure _ _))

theorem subquery_takes {query : Query} (isRead : query.IsRead) (printable : query.IsPrintable)
    (bound : Nat) : Grammar.subquery.TakesQuery bound query :=
  fun rest => .bounded fun most =>
    (subqueryWithin_takes most isRead printable rest).mono (Nat.min_le_right _ _)

theorem query_takes {query : Query} (isRead : query.IsRead) (printable : query.IsPrintable)
    (bound : Nat) : Grammar.query.Takes bound query.render.toList query [] := by
  obtain ⟨statement⟩ := query
  have noBlank : skipBlank.Takes bound [] ⟨⟩ ((Query.render ⟨statement⟩).toList ++ []) := by
    obtain ⟨more, shown⟩ := Query.exists_render_eq ⟨statement⟩
    rw [shown]
    exact .skipBlank (blankLength_solid (by decide) _)
  have inner : Grammar.statement.Takes bound (Query.render ⟨statement⟩).toList statement
      ([] ++ []) :=
    statementWith_takes isRead.own printable.own
      (fun nested member => subquery_takes (isRead.nested nested member)
        (printable.nested nested member) bound) .nothing
  have noMore : skipBlank.Takes bound [] ⟨⟩ ([] ++ []) :=
    .skipBlank (by rw [List.append_nil, blankLength.eq_def]; rfl)
  refine noBlank.step (inner.last (noMore.step (.get_bind fun cursor ahead => ?_)))
  have ended : cursor.atEnd = true := by rw [Cursor.atEnd, ahead]; rfl
  rw [ended]
  exact .pure _ _

end Takes

section Reads

variable {subquery : Parser Query} {property : Query → Prop}

theorem statementWith_reads (inner : subquery.Reads property) :
    (statementWith subquery).Reads fun statement =>
      statement.IsRead ∧ ∀ query ∈ statement.nested, property query := by
  have comma : (charAhead ',').Reads fun _ => True := (charAhead_offers (by decide)).reads
  have absent (clause : ConditionClause) : AreConditions clause [] ∧
      ∀ field ∈ ([] : List (Condition (Field Query))).filterMap Condition.operand?,
        field.Nests property := ⟨.inl rfl, by simp⟩
  have select : (takeKeyword .select).Reads fun _ => True := (takeKeyword_offers (by decide)).reads
  refine select.bind fun begun _ => .ite (fun _ => ?_) fun _ => .fail_bind
  refine (expectBlank_reads _).bind fun _ _ => ?_
  refine (Step.Yields.separatedBy comma (selectItemWith_reads inner)).bind fun fields selected => ?_
  refine (keywordAhead_offers (by decide)).reads.bind fun listed _ => .ite (fun _ => ?_)
    fun _ => .fail_bind
  refine (Step.Yields.separatedBy comma object_reads).bind fun objects areRead => ?_
  have groupKeys := (Step.Yields.separatedBy comma groupKey_reads).mono fun _ => And.right
  have orderKeys := (Step.Yields.separatedBy comma orderKey_reads).mono fun _ => And.right
  refine (clauseOr_reads .filter (by decide) (conditionClause_reads inner .filter)
    (absent .filter)).bind fun filter filtered => ?_
  refine (clauseOr_reads .groupBy (by decide) groupKeys (by simp)).bind fun groupBy keys => ?_
  refine (clauseOr_reads .having (by decide) (conditionClause_reads inner .having)
    (absent .having)).bind fun having grouped => ?_
  refine (clauseOr_reads .orderBy (by decide) orderKeys (by simp)).bind fun orderBy orders => ?_
  refine rowBounds_reads.bind fun bounds bounded => ?_
  have uses : Grammar.access.Reads fun access => access = {} ∨ access.IsRead :=
    access_reads.mono fun _ => .inr
  refine (clauseOr_reads .access (by decide) uses (.inl rfl)).bind
    fun access announced => .pure ⟨?_, ?_⟩
  · exact {
      someFields := selected.1
      fields := fun field member => (selected.2 field member).1
      someObjects := areRead.1
      objects := areRead.2
      filter := filtered.1
      groupBy := keys
      having := grouped.1
      orderBy := orders
      bounds := bounded
      access := announced
      bare := rfl }
  · refine (Statement.forall_nested_iff _).2
      ⟨fun field member => (selected.2 field member).2, ?_, ?_⟩
    · exact Condition.forall_nests_of_operands filtered.2
    · exact Condition.forall_nests_of_operands grouped.2

theorem subqueryWithin_reads (most : Nat) : (subqueryWithin most).Reads Query.IsRead := by
  induction most with
  | zero => exact .fail
  | succ most induction =>
      have opening : (expectChar '(' .missingOpening).Reads fun _ => True :=
        (takeChar_offers (by decide)).reads.bind fun _ _ =>
          .ite (fun _ => .pure trivial) fun _ => .fail
      refine opening.bind fun _ _ => enter_reads.bind fun _ _ => skipBlank_reads.bind fun _ _ => ?_
      refine (statementWith_reads induction).bind fun statement read => ?_
      refine skipBlank_reads.bind fun _ _ => (takeChar_offers (by decide)).reads.bind fun _ _ => ?_
      refine .ite (fun _ => leave_reads.bind fun _ _ => ?_) fun _ => .fail_bind
      exact .pure (.intro read.1 read.2)

theorem query_reads : Grammar.query.Reads Query.IsRead := by
  have inner : Grammar.subquery.Reads Query.IsRead := .bind .get fun _ _ => subqueryWithin_reads _
  refine skipBlank_reads.bind fun _ _ => (statementWith_reads inner).bind fun statement read => ?_
  refine skipBlank_reads.bind fun _ _ => .bind .get fun cursor _ => ?_
  exact .ite (fun _ => .pure (.intro read.1 read.2)) fun _ => .fail_bind

end Reads

end Grammar

namespace Query

/--
A query that is read from a text without comments and names in double quotes is
read again from the text that it prints, where enough brackets may be open.
-/
theorem ofText_render {text : String} {limit : Option Nat} {query : Query}
    (plain : isPlain text.toList = true) (parsed : ofText text limit = .ok query)
    (printable : query.IsPrintable) :
    ∃ enough, ∀ limit, (∀ most ∈ limit, enough ≤ most) → ofText query.render limit = .ok query := by
  have plain : (Cursor.ofText text limit).IsPlain := plain
  have isRead : query.IsRead := by
    unfold ofText at parsed
    split at parsed
    · cases parsed
      exact (Grammar.query_reads plain ‹_›).1
    · cases parsed
  refine ⟨brackets query.render.toList, fun limit enough => ?_⟩
  have room : (Cursor.ofText query.render limit).HasRoom (query.render.toList.length + 1)
      (brackets query.render.toList) := by
    refine ⟨fun most given => ?_, Nat.lt_succ_self _⟩
    rw [Cursor.ofText, Nat.zero_add]
    exact enough most given
  have taken := Grammar.query_takes isRead printable _ (List.append_nil _).symm room
  rw [ofText, taken]

def loose : String :=
  "select a n,(select b from x.ys) from x where not c='it\\'s' and d>=2020-02-29 limit 5"

def looseList : Query where
  body := {
    fields := [.ofKind (.column ["b"])]
    objects := [{ path := ["x", "ys"] }] }

def looseQuery : Query where
  body := {
    fields := [{ kind := .column ["a"], aliasName := some "n" }, .ofKind (.subquery looseList)]
    objects := [{ path := ["x"] }]
    filter := [.operand (.ofKind (.column ["c"])), .operand (.ofKind (.literal (.text "it's"))),
      .operator .eq, .operator .not, .operand (.ofKind (.column ["d"])),
      .operand (.ofKind (.literal (.date ⟨1582934400, 0⟩))), .operator .ge, .operator .and]
    bounds := { limit := some (.count 5) } }

theorem ofText_loose : ofText loose none = .ok looseQuery := by
  with_unfolding_all rfl

theorem isPrintable_loose : looseQuery.IsPrintable := by
  have list : looseList.IsPrintable := by
    refine .intro ?_ (fun _ member => by cases member)
    exact List.forall_mem_singleton.2 trivial
  have nested : ∀ query ∈ [looseList], query.IsPrintable := List.forall_mem_singleton.2 list
  have year : (Literal.date ⟨1582934400, 0⟩).IsPrintable := by
    rw [Literal.IsPrintable]
    decide
  refine .intro ?_ nested
  change ∀ field ∈ [_, _, _, _, _, _], _
  simp only [List.forall_mem_cons]
  exact ⟨trivial, trivial, trivial, trivial, trivial, year, by simp⟩

def fractional : String :=
  "select a from x where b<2.50"

def fractionalQuery : Query where
  body := {
    fields := [.ofKind (.column ["a"])]
    objects := [{ path := ["x"] }]
    filter := [.operand (.ofKind (.column ["b"])),
      .operand (.ofKind (.literal (.float (Decimal.toFloat ⟨false, 250, -2⟩)))), .operator .lt] }

theorem ofText_fractional : ofText fractional none = .ok fractionalQuery := by
  with_unfolding_all rfl

theorem isPrintable_fractional : fractionalQuery.IsPrintable := by
  have printsBack : DecimalLayout.PrintsBack (Decimal.toFloat ⟨false, 250, -2⟩) := by
    intro negative size view
    have shown : FloatView.ofFloat (Decimal.toFloat ⟨false, 250, -2⟩) =
        .finite false ⟨5629499534213120, -51, false⟩ := by decide +kernel
    obtain ⟨rfl, rfl⟩ := FloatView.finite.inj (shown.symm.trans view)
    decide +kernel
  refine .intro ?_ fun _ member => by cases member
  change ∀ field ∈ [_, _, _], _
  simp only [List.forall_mem_cons]
  exact ⟨trivial, trivial, printsBack, by simp⟩

theorem ofText_render_loose :
    (ofText loose none = .ok looseQuery ∧ ∃ enough, ∀ limit, (∀ most ∈ limit, enough ≤ most) →
      ofText looseQuery.render limit = .ok looseQuery) ∧
    ofText fractional none = .ok fractionalQuery ∧
      ∃ enough, ∀ limit, (∀ most ∈ limit, enough ≤ most) →
        ofText fractionalQuery.render limit = .ok fractionalQuery :=
  ⟨⟨ofText_loose, ofText_render (by decide +kernel) ofText_loose isPrintable_loose⟩,
    ofText_fractional, ofText_render (by decide +kernel) ofText_fractional isPrintable_fractional⟩

example :
    (ofText "select a n from x where not c='it\\'s' and d>=2020-02-29 limit 5" none).map render =
      .ok "SELECT a n FROM x WHERE (NOT (c = 'it\\'s') AND d >= 2020-02-29) LIMIT 5" := by
  decide +kernel

end Query

end ObjectQuery
