import Mathlib.Data.List.TakeWhile
import ObjectQuery.Compiler.Source
import ObjectQuery.Proofs.Grammar.Condition
import ObjectQuery.Proofs.Grammar.Value
import ObjectQuery.Proofs.Query.Mention

namespace ObjectQuery

/-! What queries are made of when they are read. -/

theorem Condition.forall_nests_of_operands {property : Query → Prop}
    {conditions : List (Condition (Field Query))}
    (nest : ∀ field ∈ conditions.filterMap Condition.operand?, field.Nests property) :
    ∀ entry ∈ conditions, entry.Nests property := by
  intro entry member query found
  obtain ⟨field, operand, nested⟩ := Option.bind_eq_some_iff.1 found
  exact nest field (List.mem_filterMap.2 ⟨entry, member, operand⟩) query nested

theorem undotted_of_identifier {chars : List Char} {name : String} {length : Nat}
    (found : identifier chars = .found name length) : Undotted name := by
  unfold identifier at found
  split at found
  · dsimp only at found
    split at found
    · cases found
      intro dot
      rw [String.toList_ofList] at dot
      exact absurd (List.mem_takeWhile_imp dot) (by decide)
    · cases found
  · cases found

/--
A statement as it is read, in whose filter no constant is the left side of a
comparison, whose objects are not linked, and which has aliases only for what it
selects.
-/
structure Statement.AsRead (statement : Statement Query) : Prop where
  parsed : statement.Parsed
  flat : statement.IsFlat
  compares : statement.ComparesFields
  unlinked : ∀ object ∈ statement.objects, object.parentViewId = none
  aliases : statement.AliasesSelected

namespace Grammar

variable {property : Query → Prop} {subquery : Parser Query}

/-- A field as it is read: its columns have names but no aliases, and nothing has a number. -/
structure Raw (field : Field Query) : Prop where
  names : field.Names (· ≠ [])
  unnumbered : field.Unnumbered
  flat : field.IsFlat
  unaliased : field.Unaliased

/-- A field as it is read, which stands for no query or for one with the property. -/
def Reads (property : Query → Prop) (field : Field Query) : Prop :=
  field.Nests property ∧ Raw field

theorem raw_column {path : Path} (named : path ≠ []) : Raw (.ofKind (.column path)) where
  names := Field.names_column named rfl
  unnumbered := Field.unnumbered_ofKind (by simp [FieldKind.marks])
  flat := trivial
  unaliased := (Field.unaliased_of_isColumn rfl).2 rfl

theorem raw_call {name : String} {arguments : List (Field Query)}
    (raw : ∀ argument ∈ arguments, argument.kind.query? = none ∧ Raw argument) :
    Raw (.ofKind (.call name arguments)) where
  names := Field.names_call fun argument member => (raw argument member).2.names
  unnumbered := Field.unnumbered_ofKind
    (Field.unnumbered_call fun argument member => (raw argument member).2.unnumbered)
  flat := Field.areFlat_iff.2 fun argument member =>
    ⟨(raw argument member).1, (raw argument member).2.flat⟩
  unaliased := Field.unaliased_of_arguments rfl fun argument member =>
    (raw argument member).2.unaliased

theorem reads_column {path : Path} (named : path ≠ []) : Reads property (.ofKind (.column path)) :=
  ⟨Field.nests_of_none rfl, raw_column named⟩

theorem reads_literal {value : Literal} (flat : value.IsFlat) :
    Reads property (.ofKind (.literal value)) :=
  ⟨Field.nests_of_none rfl, {
    names := Field.names_of_columns_eq_nil rfl fun _ impossible => by cases impossible
    unnumbered := Field.unnumbered_ofKind (by simp [FieldKind.marks])
    flat := flat
    unaliased := Field.unaliased_of_columns_eq_nil rfl }⟩

theorem query?_ofListItem (item : ListItem) :
    (Field.ofListItem item : Field Query).kind.query? = none := by
  cases item <;> rfl

theorem raw_listItem {item : ListItem} (flat : item.IsFlat) : Raw (Field.ofListItem item) where
  names := by
    refine Field.names_of_columns_eq_nil ?_ ?_
    · cases item <;> rfl
    · intro path kind
      cases item <;> cases kind
  unnumbered := by
    refine Field.unnumbered_ofKind ?_
    cases item <;> simp [FieldKind.ofListItem, FieldKind.marks]
  flat := by
    cases item with
    | literal value =>
        cases value with
        | list items => exact absurd rfl (flat items)
        | _ => trivial
    | parameter | relativeDate => trivial
  unaliased := Field.unaliased_of_columns_eq_nil (by cases item <;> rfl)

theorem reads_listItem {item : ListItem} (flat : item.IsFlat) :
    Reads property (.ofListItem item) :=
  ⟨Field.nests_of_none (query?_ofListItem item), raw_listItem flat⟩

theorem reads_subquery {query : Query} (holds : property query) :
    Reads property (.ofKind (.subquery query)) := by
  refine ⟨?_, {
    names := Field.names_of_columns_eq_nil rfl fun _ impossible => by cases impossible
    unnumbered := Field.unnumbered_ofKind (by simp [FieldKind.marks])
    flat := trivial
    unaliased := Field.unaliased_of_columns_eq_nil rfl }⟩
  rintro _ ⟨⟩
  exact holds

theorem isFlat_of_listItem {chars : List Char} {item : ListItem} {length : Nat}
    (found : listItem chars = .found item length) : item.IsFlat := by
  rintro items rfl
  obtain ⟨isRead, _⟩ := exists_of_listItem found
  generalize same : (ListItem.literal (.list items)) = item at isRead
  cases isRead <;> simp at same
  · rename_i moment _
    cases moment <;> cases same
  · rename_i number
    cases number <;> cases same

theorem listItem_yields :
    (Parser.lexeme listItem).Yields fun found => ∀ item ∈ found, item.IsFlat := by
  refine .lexeme (by simp) fun chars item length found => ?_
  rintro _ ⟨⟩
  exact isFlat_of_listItem found

theorem requiredListItem_yields (start : Nat) :
    (requiredListItem start).Yields ListItem.IsFlat := by
  refine .after fun _ => listItem_yields.bind fun found flat => ?_
  cases found with
  | some item => exact .pure (flat item rfl)
  | none => exact .failFrom

theorem valueList_yields : valueList.Yields Literal.IsFlat := by
  refine .after fun cursor => .after fun _ => .after fun _ => ?_
  refine (Step.Yields.separated _ (requiredListItem_yields _)).bind fun items flat => ?_
  refine .after fun _ => .after fun closed => .ite (fun _ => ?_) fun _ => .failFrom_bind
  exact .after fun _ => .pure flat.2

theorem name_yields : name.Yields fun found => ∀ path ∈ found, path ≠ [] := by
  refine .after fun cursor => .after fun segment => ?_
  cases segment with
  | none => exact .pure (by simp)
  | some first =>
      refine .after fun more => .ite (fun _ => .after fun later => .pure ?_) fun _ => .pure ?_
      · rintro _ ⟨⟩
        exact List.cons_ne_nil _ _
      · rintro _ ⟨⟩
        exact List.cons_ne_nil _ _

theorem requiredName_yields (fault : SyntaxFault) : (requiredName fault).Yields (· ≠ []) := by
  refine .after fun _ => .after fun reserved => .ite (fun _ => .fail_bind) fun _ => ?_
  refine name_yields.bind fun found given => ?_
  cases found with
  | some path => exact .pure (given path rfl)
  | none => exact .fail

theorem aliasName_yields : aliasName.Yields fun found => ∀ name ∈ found, Undotted name := by
  refine .after fun cursor => .after fun _ => .after fun ahead => .ite (fun _ => ?_) fun _ => ?_
  · exact .after fun _ => .pure (by simp)
  · refine .lexeme (by simp) fun chars name length found => ?_
    rintro _ ⟨⟩
    exact undotted_of_identifier found

theorem argument_yields {call : Parser (Option (Field Query))}
    (calls : call.Yields fun found => ∀ field ∈ found, field.kind.query? = none ∧ Raw field) :
    (argument call).Yields fun field => field.kind.query? = none ∧ Raw field := by
  refine calls.bind fun found given => ?_
  cases found with
  | some field => exact .pure (given field rfl)
  | none =>
      refine listItem_yields.bind fun item flat => ?_
      cases item with
      | some item => exact .pure ⟨query?_ofListItem item, raw_listItem (flat item rfl)⟩
      | none =>
          refine name_yields.bind fun path named => ?_
          cases path with
          | some path => exact .pure ⟨rfl, raw_column (named path rfl)⟩
          | none => exact .fail

theorem argumentsWith_yields {call : Parser (Option (Field Query))}
    (calls : call.Yields fun found => ∀ field ∈ found, field.kind.query? = none ∧ Raw field)
    (start : Nat) :
    (argumentsWith call start).Yields fun fields =>
      ∀ field ∈ fields, field.kind.query? = none ∧ Raw field := by
  have item : Parser.Yields (do
      Parser.skipBlank
      argument call) fun field => field.kind.query? = none ∧ Raw field :=
    .after fun _ => argument_yields calls
  have arguments : Parser.Yields (do
      let arguments ← Parser.separated (Parser.charAhead ',') do
        Parser.skipBlank
        argument call
      Parser.skipBlank
      unless ← Parser.takeChar ')' do
        Parser.failFrom .missingClosing start
      return arguments) fun fields => ∀ field ∈ fields, field.kind.query? = none ∧ Raw field := by
    refine (Step.Yields.separated _ item).bind fun fields given => .after fun _ => ?_
    refine .after fun closed => .ite (fun _ => .pure given.2) fun _ => .failFrom_bind
  exact .after fun _ => .after fun closed => .ite (fun _ => .pure (by simp)) fun _ => arguments

theorem callWithin_yields (bound : Nat) :
    (callWithin bound).Yields fun found =>
      ∀ field ∈ found, field.kind.query? = none ∧ Raw field := by
  induction bound with
  | zero => exact .fail
  | succ bound induction =>
      refine .after fun cursor => .after fun name => ?_
      cases name with
      | none => exact .pure (by simp)
      | some name =>
          refine .after fun _ => .after fun opened => .ite (fun _ => ?_) fun _ => ?_
          · refine .after fun _ => ?_
            refine (argumentsWith_yields induction _).bind fun arguments given => .after fun _ => ?_
            refine .pure ?_
            rintro field ⟨⟩
            exact ⟨rfl, raw_call given⟩
          · exact .after fun _ => .pure (by simp)

variable (property) in
theorem call_yields : call.Yields fun found => ∀ field ∈ found, Reads property field :=
  .after fun _ => (callWithin_yields _).mono fun _ given field member =>
    ⟨Field.nests_of_none (given field member).1, (given field member).2⟩

theorem call_isCall : call.Yields fun found => ∀ field ∈ found, field.kind.isCall = true := by
  refine .after fun cursor => ?_
  generalize cursor.ahead.length + 1 = bound
  cases bound with
  | zero => exact .fail
  | succ bound =>
      refine .after fun cursor => .after fun name => ?_
      cases name with
      | none => exact .pure (by simp)
      | some name =>
          refine .after fun _ => .after fun opened => .ite (fun _ => ?_) fun _ => ?_
          · refine .after fun _ => .after fun _ => .after fun _ => .pure ?_
            rintro field ⟨⟩
            rfl
          · exact .after fun _ => .pure (by simp)

/-- The left side of a comparison as it is read, which is a name or a call. -/
def ReadsLeft (property : Query → Prop) (field : Field Query) : Prop :=
  Reads property field ∧ ¬field.IsConstant

theorem leftOperand_yields (clause : ConditionClause) :
    (leftOperand clause).Yields (ReadsLeft property) := by
  refine ((call_yields property).and call_isCall).bind fun found reads => ?_
  cases found with
  | some field =>
      exact .pure ⟨reads.1 field rfl, Field.not_isConstant_of_isCall (reads.2 field rfl)⟩
  | none =>
      cases clause with
      | having => exact .fail
      | filter =>
          refine name_yields.bind fun path named => ?_
          cases path with
          | some path =>
              exact .pure ⟨reads_column (named path rfl), Field.not_isConstant_of_isColumn rfl⟩
          | none => exact .fail

theorem rightNameOrList_yields (clause : ConditionClause) :
    (rightNameOrList clause).Yields (Reads property) := by
  have listed : Parser.Yields (do
      if ← Parser.isAhead '(' then
        return .ofKind (.literal (← valueList))
      else
        Parser.fail (.badComparison clause.clause .right))
      (Reads property) := by
    refine .after fun bracket => .ite (fun _ => ?_) fun _ => .fail
    exact valueList_yields.bind fun value flat => .pure (reads_literal flat)
  unfold rightNameOrList
  refine .ite (fun _ => name_yields.bind fun path given => ?_) fun _ => listed
  cases path with
  | some path => exact .pure (reads_column (given path rfl))
  | none => exact listed

theorem rightOperand_yields (inner : subquery.Yields property) (clause : ConditionClause) :
    (rightOperand subquery clause).Yields (Reads property) := by
  refine listItem_yields.bind fun item flat => ?_
  cases item with
  | some item => exact .pure (reads_listItem (flat item rfl))
  | none =>
      refine .after fun nested => .ite (fun _ => ?_) fun _ => ?_
      · exact inner.bind fun query holds => .pure (reads_subquery holds)
      · refine (call_yields property).bind fun found reads => ?_
        cases found with
        | some field => exact .pure (reads field rfl)
        | none => exact rightNameOrList_yields clause

/-- A selected field as it is read, with an alias that holds no dot. -/
structure ReadsItem (property : Query → Prop) (field : Field Query) : Prop where
  nests : field.Nests property
  names : field.Names (· ≠ [])
  unnumbered : field.Unnumbered
  flat : field.IsFlat
  arguments : field.TakesUnaliased
  aliasName : ∀ name ∈ field.aliasName, Undotted name

theorem Reads.item {field : Field Query} (reads : Reads property field)
    {aliasName : Option String} (undotted : ∀ name ∈ aliasName, Undotted name) :
    ReadsItem property { field with aliasName } where
  nests := Field.nests_congr (by rfl) reads.1
  names := Field.names_congr (by rfl) reads.2.names
  unnumbered := Field.unnumbered_congr (by rfl) (by rfl) reads.2.unnumbered
  flat := by
    have flat := reads.2.flat
    rwa [Field.isFlat_eq] at flat ⊢
  arguments := reads.2.unaliased.arguments
  aliasName := undotted

theorem selectItemWith_yields (inner : subquery.Yields property) :
    (selectItemWith subquery).Yields (ReadsItem property) := by
  have aliased {field : Field Query} (reads : Reads property field) : Parser.Yields
      (do return { field with aliasName := ← aliasName }) (ReadsItem property) :=
    aliasName_yields.bind fun _ undotted => .pure (reads.item undotted)
  refine .after fun _ => .after fun reserved => .ite (fun _ => .fail_bind) fun _ => ?_
  refine .after fun nested => .ite (fun _ => ?_) fun _ =>
    (call_yields property).bind fun found reads => ?_
  · exact inner.bind fun query holds => aliased (reads_subquery holds)
  · cases found with
    | some field => exact aliased (reads field rfl)
    | none =>
        refine name_yields.bind fun path named => ?_
        cases path with
        | some path => exact aliased (reads_column (named path rfl))
        | none => exact .fail_bind

/-- The conditions of a clause as they are read, or those of a clause that is absent. -/
def ReadsFilter (property : Query → Prop) (conditions : List (Condition (Field Query))) : Prop :=
  Condition.IsFilterOver (ReadsLeft property) (Reads property) conditions

theorem ReadsFilter.operands {conditions : List (Condition (Field Query))}
    (filter : ReadsFilter property conditions) :
    ∀ field ∈ conditions.filterMap Condition.operand?, Reads property field :=
  filter.holds (fun _ => And.left) fun _ => id

theorem conditionClause_yields (inner : subquery.Yields property) (clause : ConditionClause) :
    (conditionClause subquery clause).Yields (ReadsFilter property) := by
  have conditions : (conditionsWith subquery clause).Yields (ReadsFilter property) :=
    (conditionsWith_yields (leftOperand_yields clause) (rightOperand_yields inner clause)).mono
      fun _ given => .inr given
  exact .after fun bracket => .ite (fun _ => conditions) fun _ => .after fun _ => conditions

theorem object_yields :
    object.Yields fun object => Statement.Declared object ∧ object.parentViewId = none := by
  refine (requiredName_yields _).bind fun path named => ?_
  exact aliasName_yields.bind fun aliasName undotted => .pure ⟨⟨named, undotted⟩, rfl⟩

theorem groupKey_yields :
    groupKey.Yields fun key => Reads (fun _ => True) key ∧ key.kind.isColumn = true :=
  (requiredName_yields _).bind fun _ named => .pure ⟨reads_column named, rfl⟩

theorem orderKey_yields : orderKey.Yields fun order =>
    Reads (fun _ => True) order.field ∧ order.field.kind.isColumn = true := by
  refine (requiredName_yields _).bind fun path named => ?_
  exact .after fun _ => .after fun _ => .pure ⟨reads_column named, rfl⟩

theorem clauseOr_yields {keyword : Keyword} {absent : α} {content : Parser α} {holds : α → Prop}
    (default : holds absent) (present : content.Yields holds) :
    (clauseOr keyword absent content).Yields holds :=
  .after fun _ => .ite (fun _ => present) fun _ => .pure default

/-- A statement as it is read nests queries with the property that its parser gives them. -/
theorem statementWith_yields (inner : subquery.Yields property) :
    (statementWith subquery).Yields fun statement =>
      statement.AsRead ∧ ∀ query ∈ statement.nested, property query := by
  have absent : ReadsFilter property [] := .inl rfl
  refine .after fun begun => .ite (fun _ => .after fun _ => ?_) fun _ => .fail_bind
  refine (Step.Yields.separated _ (selectItemWith_yields inner)).bind fun fields reads => ?_
  refine .after fun listed => .ite (fun _ => ?_) fun _ => .fail_bind
  refine (Step.Yields.separated _ object_yields).bind fun objects declared => ?_
  refine (clauseOr_yields absent (conditionClause_yields inner .filter)).bind
    fun filter filtered => ?_
  refine (clauseOr_yields (by simp) ((Step.Yields.separated _ groupKey_yields).mono
    fun _ => And.right)).bind fun groupBy keys => ?_
  refine (clauseOr_yields absent (conditionClause_yields inner .having)).bind
    fun having grouped => ?_
  refine (clauseOr_yields (by simp) ((Step.Yields.separated _ orderKey_yields).mono
    fun _ => And.right)).bind fun orderBy orders => ?_
  refine .after fun bounds => .after fun access => .pure ⟨⟨?_, ?_, ?_, ?_, ?_⟩, ?_⟩
  · exact {
      unnumbered := rfl
      objects := declared.1
      declared := fun object member => (declared.2 object member).1
      filter := filtered.isFilter
      having := grouped.isFilter
      names := {
        fields := fun field member => (reads.2 field member).names
        filter := fun field member => (filtered.operands field member).2.names
        groupBy := fun field member => (keys field member).1.2.names
        having := fun field member => (grouped.operands field member).2.names
        orderBy := fun order member => (orders order member).1.2.names }
      fresh := by
        simp only [Statement.everyField, List.forall_mem_append, List.forall_mem_map]
        exact ⟨⟨⟨⟨fun field member => (reads.2 field member).unnumbered,
          fun field member => (filtered.operands field member).2.unnumbered⟩,
          fun field member => (keys field member).1.2.unnumbered⟩,
          fun field member => (grouped.operands field member).2.unnumbered⟩,
          fun order member => (orders order member).1.2.unnumbered⟩
      groups := {
        aliases := fun field member => (reads.2 field member).aliasName
        columns := fun key member => (keys key member).2
        aggregates := rfl } }
  · constructor
    · simp only [Statement.everyField, List.forall_mem_append, List.forall_mem_map]
      exact ⟨⟨⟨⟨fun field member => (reads.2 field member).flat,
        fun field member => (filtered.operands field member).2.flat⟩,
        fun field member => (keys field member).1.2.flat⟩,
        fun field member => (grouped.operands field member).2.flat⟩,
        fun order member => (orders order member).1.2.flat⟩
    · rw [List.forall_mem_append, List.forall_mem_map]
      exact ⟨fun key member => Field.query?_of_isColumn (keys key member).2,
        fun order member => Field.query?_of_isColumn (orders order member).2⟩
  · exact filtered.imp (fun _ => And.right) fun _ _ => trivial
  · exact fun object member => (declared.2 object member).2
  · exact {
      fields := fun field member => (reads.2 field member).arguments
      filter := fun field member => (filtered.operands field member).2.unaliased
      groupBy := fun field member => (keys field member).1.2.unaliased
      having := fun field member => (grouped.operands field member).2.unaliased
      orderBy := fun order member => (orders order member).1.2.unaliased }
  · refine (Statement.forall_nested_iff _).2
      ⟨fun field member => (reads.2 field member).nests, ?_, ?_⟩
    · exact Condition.forall_nests_of_operands fun field member =>
        (filtered.operands field member).1
    · exact Condition.forall_nests_of_operands fun field member =>
        (grouped.operands field member).1

theorem subqueryWithin_yields (bound : Nat) :
    (subqueryWithin bound).Yields fun query => query.Throughout Statement.AsRead := by
  induction bound with
  | zero => exact .fail
  | succ bound induction =>
      refine .after fun _ => .after fun _ => .after fun _ => ?_
      refine (statementWith_yields induction).bind fun statement given => .after fun _ => ?_
      refine .after fun closed => .ite (fun _ => ?_) fun _ => .fail_bind
      exact .after fun _ => .pure (.intro given.1 given.2)

theorem query_yields : query.Yields fun query => query.Throughout Statement.AsRead := by
  have inner : subquery.Yields fun query => query.Throughout Statement.AsRead :=
    .after fun _ => subqueryWithin_yields _
  refine .after fun _ => (statementWith_yields inner).bind fun statement given => ?_
  refine .after fun _ => .after fun cursor => .ite (fun _ => ?_) fun _ => .fail_bind
  exact .pure (.intro given.1 given.2)

end Grammar

theorem CompilerOptions.asRead_of_parse {options : CompilerOptions} {source : String}
    {query : Query} (parsed : options.parse source = .ok query) :
    query.Throughout Statement.AsRead := by
  have ofText : ∀ {limit}, (Query.ofText source limit).mapError CompileError.syntactic =
      .ok query → query.Throughout Statement.AsRead := by
    intro limit spelt
    unfold Query.ofText at spelt
    split at spelt
    · cases spelt
      exact Grammar.query_yields.of_ok ‹_›
    · cases spelt
  unfold CompilerOptions.parse at parsed
  simp only at parsed
  split at parsed
  · exact ofText parsed
  · split at parsed
    · cases parsed
    · exact ofText parsed

theorem CompilerOptions.written_of_parse {options : CompilerOptions} {source : String}
    {query : Query} (parsed : options.parse source = .ok query) : query.Written :=
  (asRead_of_parse parsed).mono fun _ read => ⟨read.parsed, read.flat⟩

theorem CompilerOptions.parsed_of_parse {options : CompilerOptions} {source : String}
    {query : Query} (parsed : options.parse source = .ok query) : query.Parsed :=
  (asRead_of_parse parsed).mono fun _ read => read.parsed

/-- A text that is not read is at fault itself. -/
theorem CompilerOptions.exists_syntactic_of_parse {options : CompilerOptions} {source : String}
    {error : CompileError} (failed : options.parse source = .error error) :
    ∃ cause, error = .syntactic cause := by
  have ofText : ∀ {limit}, (Query.ofText source limit).mapError CompileError.syntactic =
      .error error → ∃ cause, error = .syntactic cause := by
    intro limit spelt
    cases outcome : Query.ofText source limit with
    | ok query => simp [outcome, Except.mapError] at spelt
    | error cause =>
        rw [outcome] at spelt
        cases spelt
        exact ⟨cause, rfl⟩
  unfold CompilerOptions.parse at failed
  simp only at failed
  split at failed
  · exact ofText failed
  · split at failed
    · cases failed
      exact ⟨_, rfl⟩
    · exact ofText failed

end ObjectQuery
