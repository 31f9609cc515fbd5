import ObjectQuery.Grammar.Statement
import ObjectQuery.Proofs.Grammar.Bounds
import ObjectQuery.Proofs.Grammar.Formula
import ObjectQuery.Proofs.Grammar.Item
import ObjectQuery.Proofs.Grammar.Operand

namespace ObjectQuery

/-! Selected fields as plain texts spell them, which are read again from their text. -/

/-- A selected field as it is read. -/
inductive Field.IsSelected : Field Query → Prop where
  | subquery (query : Query) {aliasName : Option String}
      (isAlias : IsAliasAfter (fun _ => False) aliasName) :
      IsSelected { kind := .subquery query, aliasName }
  | named {kind : FieldKind Query} {aliasName : Option String}
      (isNamed : (ofKind kind).IsNamed fun name => isReserved name.toList = false)
      (isAlias : IsAliasAfter (fun first => kind = .column [first]) aliasName) :
      IsSelected { kind, aliasName }

theorem Field.IsNamed.eq_ofKind {holds : String → Prop} {field : Field Query}
    (isNamed : field.IsNamed holds) : field = .ofKind field.kind := by
  cases isNamed with
  | column => rfl
  | call isCall =>
      obtain ⟨isName, each⟩ := isCall
      rfl

theorem Query.toList_renderField (kind : FieldKind Query) (aliasName : Option String) :
    (renderField { kind, aliasName }).toList =
      (renderField (.ofKind kind)).toList ++ aliasChars aliasName := by
  cases aliasName with
  | none => exact (List.append_nil _).symm
  | some name => exact renderField_aliased kind name

theorem Field.IsSelected.blank {field : Field Query} (isSelected : field.IsSelected)
    (rest : List Char) : blankLength ((Query.renderField field).toList ++ rest) = .ok 0 := by
  cases isSelected with
  | subquery query isAlias =>
      rw [Query.toList_renderField, Query.renderField_subquery]
      exact blankLength_solid (by decide) _
  | named isNamed isAlias =>
      rw [Query.toList_renderField, List.append_assoc]
      exact isNamed.fronts.blank _

namespace Grammar

open ObjectQuery.Parser

variable {subquery : Parser Query} {bound : Nat} {keywords : List Keyword} {rest lead : List Char}

section Takes

theorem selectItem_subquery {query : Query} {aliasName : Option String}
    (taken : subquery.TakesQuery bound query) (isAlias : IsAliasAfter (fun _ => False) aliasName)
    (ends : ItemEnd keywords rest) (leads : lead = [] ∨ lead = [' ']) :
    (selectItemWith subquery).Takes bound
      (lead ++ (('(' :: (query.render.toList ++ [')'])) ++ aliasChars aliasName))
      { kind := .subquery query, aliasName } rest := by
  obtain ⟨more, shown⟩ := query.exists_render_eq
  have solid : blankLength (('(' :: (query.render.toList ++ [')'])) ++ aliasChars aliasName ++ rest) =
      .ok 0 := blankLength_solid (by decide) _
  have unreserved : isReservedAhead.Takes bound [] false
      (('(' :: (query.render.toList ++ [')'])) ++ aliasChars aliasName ++ rest) := by
    have free : isReserved (('(' :: (query.render.toList ++ [')'])) ++ aliasChars aliasName ++ rest) =
        false := rfl
    rw [← free]
    exact .isReservedAhead _
  have ahead : isSubqueryAhead.Takes bound [] true
      (('(' :: (query.render.toList ++ [')'])) ++ aliasChars aliasName ++ rest) := by
    rw [shown]
    exact isSubqueryAhead_bracket (blankLength_solid (by decide) _) rfl
  refine (skipBlank_takes leads solid).bind (unreserved.step (ahead.step ?_))
  exact (taken _).bind ((isAlias.takes ends bound).last (.pure _ _))

theorem selectItem_named {kind : FieldKind Query} {aliasName : Option String}
    (isNamed : (Field.ofKind kind).IsNamed fun name => isReserved name.toList = false)
    (printable : (Field.ofKind kind).IsPrintable)
    (isAlias : IsAliasAfter (fun first => kind = .column [first]) aliasName)
    (ends : ItemEnd keywords rest) (leads : lead = [] ∨ lead = [' ']) :
    (selectItemWith subquery).Takes bound
      (lead ++ ((Query.renderField (.ofKind kind)).toList ++ aliasChars aliasName))
      { kind, aliasName } rest := by
  have follows := isAlias.follows ends
  have free := isNamed.isReserved (fun _ => id) follows.breaks
    fun name single pairs => isAlias.notPairing ends (congrArg Field.kind single) pairs
  rw [← List.append_assoc] at free
  have unreserved : isReservedAhead.Takes bound [] false
      ((Query.renderField (.ofKind kind)).toList ++ aliasChars aliasName ++ rest) :=
    free ▸ .isReservedAhead _
  have noQuery : isSubqueryAhead.Takes bound [] false
      ((Query.renderField (.ofKind kind)).toList ++ aliasChars aliasName ++ rest) := by
    rw [List.append_assoc]
    exact isSubqueryAhead_absent (isNamed.fronts.head?_ne _ (by decide) (by decide))
  have solid : blankLength
      ((Query.renderField (.ofKind kind)).toList ++ aliasChars aliasName ++ rest) = .ok 0 := by
    rw [List.append_assoc]
    exact isNamed.fronts.blank _
  refine (skipBlank_takes leads solid).bind (unreserved.step (noQuery.step ?_))
  have aliased : (Grammar.aliasName >>= fun given =>
      pure { Field.ofKind kind with aliasName := given }).Takes bound (aliasChars aliasName)
        { kind, aliasName } rest :=
    (isAlias.takes ends bound).last (.pure _ _)
  generalize same : Field.ofKind kind = field at isNamed
  cases isNamed with
  | @column first others isPath head =>
      cases same
      rw [Query.renderField_column]
      have uncalled := Uncalled.of_isPath isPath follows
      rw [← List.append_assoc] at uncalled
      exact (call_absent uncalled).step ((name_takes isPath follows).bind aliased)
  | call isCall head =>
      cases same
      exact (call_takes isCall printable _).bind aliased

theorem selectItem_takes {field : Field Query} (isSelected : field.IsSelected)
    (printable : field.IsPrintable) (nested : field.Nests (subquery.TakesQuery bound))
    (ends : ItemEnd keywords rest) (leads : lead = [] ∨ lead = [' ']) :
    (selectItemWith subquery).Takes bound (lead ++ (Query.renderField field).toList) field rest := by
  cases isSelected with
  | subquery query isAlias =>
      rw [Query.toList_renderField, Query.renderField_subquery]
      exact selectItem_subquery (nested query rfl) isAlias ends leads
  | named isNamed isAlias =>
      rw [Query.toList_renderField]
      exact selectItem_named isNamed printable isAlias ends leads

end Takes

section Reads

open Step

variable {property : Query → Prop}

theorem selectItemWith_reads (inner : subquery.Reads property) :
    (selectItemWith subquery).Reads fun field => field.IsSelected ∧ field.Nests property := by
  refine .of_meets fun before plain => (meets_skipBlank plain).bind ?_
  rintro ⟨⟩ next ⟨plain, -⟩
  refine meets_isReservedAhead.bind ?_
  rintro _ next ⟨rfl, rfl⟩
  refine .ite (fun _ => meets_fail_bind) fun free => ?_
  have free : isReserved next.ahead = false := by simpa using free
  refine meets_isSubqueryAhead.bind ?_
  rintro nested next rfl
  refine .ite (fun _ => (inner.meets plain).bind ?_) fun _ =>
    (meets_namedCall (headHolds_free free) plain).bind ?_
  · rintro query next ⟨holds, plain⟩
    refine (meets_aliasAfter plain fun _ => False.elim).bind ?_
    rintro aliasName after ⟨isAlias, later⟩
    refine .pure ⟨⟨.subquery query isAlias, ?_⟩, later⟩
    rintro _ ⟨⟩
    exact holds
  · rintro found next ⟨plain, stays, calls⟩
    cases found with
    | some field =>
        obtain ⟨isNamed, isCall⟩ := calls field rfl
        have other : ∀ first, field.kind ≠ .column [first] := by
          intro first same
          rw [same] at isCall
          cases isCall
        refine (meets_aliasAfter plain fun first same => absurd same (other first)).bind ?_
        rintro aliasName after ⟨isAlias, later⟩
        have nests : field.Nests property := Field.nests_of_none isNamed.kind_query?
        have shape := isNamed.eq_ofKind
        rw [shape] at isNamed nests ⊢
        exact .pure ⟨⟨.named isNamed isAlias, nests⟩, later⟩
    | none =>
        obtain rfl := stays rfl
        refine (meets_name plain).bind ?_
        rintro path next ⟨plain, -, spells⟩
        cases path with
        | none => exact meets_fail_bind
        | some path =>
            have spelled := spells path rfl
            have isNamed := (headHolds_free free).column spelled
            have alone : ∀ first, (.column path : FieldKind Query) = .column [first] →
                isWordEnd next.ahead = true ∧
                  (Keyword.pairs first.toList = true → NotPairing next.ahead) :=
              fun first same => (spelled.isFree free).2 first (FieldKind.column.inj same)
            refine (meets_aliasAfter plain alone).bind ?_
            rintro aliasName after ⟨isAlias, later⟩
            exact .pure ⟨⟨.named isNamed isAlias, Field.nests_of_none rfl⟩, later⟩

end Reads

end Grammar

/-! The clauses of a statement as plain texts spell them, each after what it may follow. -/

namespace Formula.Compares

variable {α : Type} {formula : Formula α} {left right : α → Prop}

theorem mono (compares : formula.Compares left right) {leftToo rightToo : α → Prop}
    (onLeft : ∀ operand ∈ formula.operands, left operand → leftToo operand)
    (onRight : ∀ operand ∈ formula.operands, right operand → rightToo operand) :
    formula.Compares leftToo rightToo := by
  induction formula with
  | compared first comparison second =>
      exact ⟨onLeft first (by simp [operands]) compares.1, onRight second (by simp [operands]) compares.2⟩
  | not inner induction => exact induction compares onLeft onRight
  | both first second firstInduction secondInduction
  | either first second firstInduction secondInduction =>
      rw [operands, List.forall_mem_append] at onLeft onRight
      exact ⟨firstInduction compares.1 onLeft.1 onRight.1,
        secondInduction compares.2 onLeft.2 onRight.2⟩

theorem forall_operands (compares : formula.Compares left right) {property : α → Prop}
    (onLeft : ∀ operand, left operand → property operand)
    (onRight : ∀ operand, right operand → property operand) :
    ∀ operand ∈ formula.operands, property operand := by
  induction formula with
  | compared first comparison second =>
      simpa [operands] using And.intro (onLeft first compares.1) (onRight second compares.2)
  | not inner induction => exact induction compares
  | both first second firstInduction secondInduction
  | either first second firstInduction secondInduction =>
      rw [operands, List.forall_mem_append]
      exact ⟨firstInduction compares.1, secondInduction compares.2⟩

end Formula.Compares

namespace Closed

variable {keywords : List Keyword} {rest : List Char}

theorem reserved (closed : Closed keywords rest) : Closed Keyword.reserved rest := by
  cases closed with
  | nothing => exact .nothing
  | closing rest => exact .closing rest
  | clause reserved _ rest => exact .clause reserved reserved rest

theorem endsConditions (closed : Closed keywords rest) : Grammar.EndsConditions rest where
  follows := closed.follows
  noAnd := closed.reserved.keywordAhead (by decide) (by decide)
  noOr := closed.reserved.keywordAhead (by decide) (by decide)

end Closed

namespace Grammar

open ObjectQuery.Parser

variable {subquery : Parser Query} {clause : ConditionClause} {keyword : Keyword}
  {keywords : List Keyword} {bound : Nat} {rest : List Char}

/-- The conditions of a clause as they are read, or those of a clause that is absent. -/
def AreConditions (clause : ConditionClause) (list : List (Condition (Field Query))) : Prop :=
  list = [] ∨ ∃ formula : Formula (Field Query), list = formula.postfixList ∧
    formula.Compares (·.IsLeft clause) (·.IsRight clause)

section Takes

/-- A clause is taken up after its keyword, or left out where its keyword does not stand. -/
theorem clauseOr_takes {α : Type} {absent value : α} {content : Parser α} {text : List Char}
    {isEmpty : Bool} (reserved : keyword ∈ Keyword.reserved)
    (none : isEmpty = true → value = absent)
    (some : isEmpty = false → content.Takes bound ([' '] ++ text) value rest)
    (ends : (keywordAhead keyword).Takes bound [] false rest) :
    (clauseOr keyword absent content).Takes bound (clauseChars keyword isEmpty text) value rest := by
  cases isEmpty with
  | true =>
      obtain rfl := none rfl
      exact ends.step (.pure _ _)
  | false =>
      refine (Closed.keywordAhead_spelled reserved bound _).bind ?_
      exact some rfl

/-- The items of a clause, with commas between them. -/
theorem items_takes {α : Type} {item : Parser α} {values : List α} {spell : α → String}
    (items : ∀ value ∈ values, ∀ lead, lead = [] ∨ lead = [' '] → ∀ following,
      ItemEnd keywords following → item.Takes bound (lead ++ (spell value).toList) value following)
    (some : values ≠ []) (ends : Closed keywords rest) {lead : List Char}
    (leads : lead = [] ∨ lead = [' ']) :
    (separated (charAhead ',') item).Takes bound (lead ++ listText spell values) values rest :=
  .commaSeparated items (.closed ends) .comma (ends.charAhead bound) some leads

theorem selectItemsWith_takes {fields : List (Field Query)} (some : fields ≠ [])
    (areSelected : ∀ field ∈ fields, field.IsSelected) (printable : ∀ field ∈ fields, field.IsPrintable)
    (nested : ∀ field ∈ fields, field.Nests (subquery.TakesQuery bound))
    (ends : Closed keywords rest) :
    (selectItemsWith subquery).Takes bound (listText Query.renderField fields) fields rest := by
  refine items_takes (fun field member lead leads following ends => ?_) some ends (.inl rfl)
  exact selectItem_takes (areSelected field member) (printable field member) (nested field member)
    ends leads

theorem objects_takes {objects : List (SourceObject Query)} (some : objects ≠ [])
    (areRead : ∀ object ∈ objects, object.IsRead) (ends : Closed keywords rest) :
    Grammar.objects.Takes bound ([' '] ++ listText SourceObject.render objects) objects rest := by
  refine items_takes (fun object member lead leads following ends => ?_) some ends (.inr rfl)
  exact object_takes (areRead object member) ends leads

theorem formula_blank {formula : Formula (Field Query)} {right : Field Query → Prop}
    (compares : formula.Compares (·.IsLeft clause) right) (rest : List Char) :
    blankLength ((formula.text Query.renderField).toList ++ rest) = .ok 0 := by
  cases formula with
  | compared first comparison second =>
      rw [Formula.toList_text_compared, List.append_assoc]
      exact compares.1.isNamed.fronts.blank _
  | not inner =>
      rw [Formula.toList_text_not]
      exact blankLength_solid (by decide) _
  | both first second =>
      rw [Formula.toList_text_both]
      exact blankLength_solid (by decide) _
  | either first second =>
      rw [Formula.toList_text_either]
      exact blankLength_solid (by decide) _

theorem conditionClause_takes {list : List (Condition (Field Query))}
    (areConditions : AreConditions clause list) (some : list ≠ [])
    (operands : ∀ field ∈ list.filterMap Condition.operand?,
      field.IsPrintable ∧ field.Nests (subquery.TakesQuery bound)) (ends : Closed keywords rest) :
    (conditionClause subquery clause).Takes bound
      ([' '] ++ (Query.renderConditions list).toList) list rest := by
  obtain ⟨formula, rfl, compares⟩ := areConditions.resolve_left some
  rw [Formula.filterMap_operand?_postfixList] at operands
  have isTerm : TakesTerm subquery clause bound formula :=
    takesTerm_of_compares (compares.mono
      (fun operand member isLeft => ⟨isLeft, (operands operand member).1⟩)
      fun operand member isRight => ⟨isRight, operands operand member⟩)
  have unbracketed : (isAhead '(').Takes bound []
      false (([' '] ++ (formula.text Query.renderField).toList) ++ rest) := .isAhead '(' _
  have blank : (expectBlank (.badClause clause.clause)).Takes bound [' '] ⟨⟩
      ((formula.text Query.renderField).toList ++ rest) :=
    .expectBlank (blankLength_space (formula_blank compares rest)) (List.cons_ne_nil _ _)
  rw [Formula.renderConditions_postfixList]
  exact unbracketed.step (blank.bind (conditionsWith_takes isTerm ends.endsConditions))

theorem conditionsOr_takes (reserved : keyword ∈ Keyword.reserved)
    {list : List (Condition (Field Query))} (areConditions : AreConditions clause list)
    (operands : ∀ field ∈ list.filterMap Condition.operand?,
      field.IsPrintable ∧ field.Nests (subquery.TakesQuery bound)) (ends : Closed keywords rest)
    (other : (keywordAhead keyword).Takes bound [] false rest) :
    (clauseOr keyword [] (conditionClause subquery clause)).Takes bound
      (clauseChars keyword list.isEmpty (Query.renderConditions list).toList) list rest := by
  refine clauseOr_takes reserved List.isEmpty_iff.1 (fun given => ?_) other
  exact conditionClause_takes areConditions (by simpa using given) operands ends

theorem itemsOr_takes {α : Type} (reserved : keyword ∈ Keyword.reserved) {item : Parser α}
    {values : List α} {spell : α → String}
    (items : ∀ value ∈ values, ∀ lead, lead = [] ∨ lead = [' '] → ∀ following,
      ItemEnd keywords following → item.Takes bound (lead ++ (spell value).toList) value following)
    (ends : Closed keywords rest) (other : (keywordAhead keyword).Takes bound [] false rest) :
    (clauseOr keyword [] (separated (charAhead ',') item)).Takes bound
      (clauseChars keyword values.isEmpty (listText spell values)) values rest := by
  refine clauseOr_takes reserved List.isEmpty_iff.1 (fun given => ?_) other
  exact items_takes items (by simpa using given) ends (.inr rfl)

theorem groupKeysOr_takes {keys : List (Field Query)} (areKeys : ∀ key ∈ keys, key.IsKey)
    (ends : Closed [.having, .orderBy, .offset, .limit, .access] rest) :
    (clauseOr .groupBy [] groupKeys).Takes bound
      (clauseChars .groupBy keys.isEmpty (listText Query.renderField keys)) keys rest := by
  refine itemsOr_takes (by simp [Keyword.reserved]) (fun key member lead leads following ends => ?_)
    ends (ends.keywordAhead (by decide) (by decide) bound)
  exact groupKey_takes (areKeys key member) ends leads

theorem orderKeysOr_takes {orders : List (OrderKey Query)}
    (areKeys : ∀ order ∈ orders, order.field.IsKey) (ends : Closed [.offset, .limit, .access] rest) :
    (clauseOr .orderBy [] orderKeys).Takes bound
      (clauseChars .orderBy orders.isEmpty (listText Query.renderOrderKey orders)) orders rest := by
  refine itemsOr_takes (by simp [Keyword.reserved]) (fun order member lead leads following ends => ?_)
    ends (ends.keywordAhead (by decide) (by decide) bound)
  exact orderKey_takes (areKeys order member) ends leads

/-- The text of the uses is that of a clause, which is taken up. -/
theorem accessOr_takes {access : AccessClause} (isRead : access = {} ∨ access.IsRead)
    (ends : Closed [] rest) (bound : Nat) :
    ∃ content, (if access.isEmpty then [] else ' ' :: access.render.toList) =
        clauseChars .access access.isEmpty content ∧
      (clauseOr .access {} Grammar.access).Takes bound
        (clauseChars .access access.isEmpty content) access rest := by
  have reserved : Keyword.access ∈ Keyword.reserved := by simp [Keyword.reserved]
  have other : (keywordAhead .access).Takes bound [] false rest :=
    ends.keywordAhead (by decide) (by decide) bound
  rcases isRead with rfl | isRead
  · exact ⟨[], rfl, clauseOr_takes reserved (fun _ => rfl) (fun given => by cases given) other⟩
  · obtain ⟨content, shown, takes⟩ := access_takes isRead ends
    refine ⟨content, ?_, clauseOr_takes reserved (AccessClause.isEmpty_iff _).1
      (fun _ => takes) other⟩
    rw [clauseChars, shown]
    rfl

end Takes

section Reads

variable {property : Query → Prop}

theorem IsConditions.areConditions {list : List (Condition (Field Query))}
    (given : IsConditions clause property list) : AreConditions clause list ∧
      ∀ field ∈ list.filterMap Condition.operand?, field.Nests property := by
  obtain ⟨formula, rfl, compares⟩ := given
  refine ⟨.inr ⟨formula, rfl, compares.mono (fun _ _ => id) fun _ _ => And.left⟩, ?_⟩
  rw [Formula.filterMap_operand?_postfixList]
  refine compares.forall_operands (fun left isLeft => ?_) fun right => And.right
  exact Field.nests_of_none isLeft.isNamed.kind_query?

theorem clauseOr_reads {α : Type} {absent : α} {content : Parser α} {holds : α → Prop}
    (keyword : Keyword) (lettered : keyword.isLettered = true) (present : content.Reads holds)
    (default : holds absent) :
    (clauseOr keyword absent content).Reads holds :=
  (keywordAhead_offers lettered).reads.bind fun _ _ => .ite (fun _ => present) fun _ => .pure default

theorem conditionClause_reads (inner : subquery.Reads property) (clause : ConditionClause) :
    (conditionClause subquery clause).Reads fun list => AreConditions clause list ∧
      ∀ field ∈ list.filterMap Condition.operand?, field.Nests property := by
  have conditions : (conditionsWith subquery clause).Reads fun list => AreConditions clause list ∧
      ∀ field ∈ list.filterMap Condition.operand?, field.Nests property :=
    (conditionsWith_reads inner).mono fun _ => IsConditions.areConditions
  refine (isAhead_reads '(').bind fun bracket _ => .ite (fun _ => conditions) fun _ => ?_
  exact (expectBlank_reads _).bind fun _ _ => conditions

end Reads

end Grammar

end ObjectQuery
