import ObjectQuery.Proofs.Resolution.Nested
import ObjectQuery.Proofs.Resolution.Spelling

namespace ObjectQuery

/-! Statements that differ in spellings at most are resolved alike, clause by clause. -/

variable {Q : Type} {spelling : Respelling} {queries : Q → Q → Prop}

namespace Field

open Step (Parallel)

theorem addAlias_alike {selected others : SelectAliases Q}
    (known : selected.Related (Field.Respelled spelling queries) others) {field other : Field Q}
    (same : field.Respelled spelling queries other) :
    Resolver.Alike spelling queries (addAlias selected field) (addAlias others other)
      (SortedMap.Related (Field.Respelled spelling queries)) := by
  unfold addAlias
  rcases same.aliasName.elim with ⟨none, noneToo⟩ | ⟨aliasName, also, some, someToo, names⟩
  · rw [none, noneToo]
    exact .pure known
  · rw [some, someToo]
    dsimp only
    rw [spelling.lowerText_eq names, known.contains_eq]
    exact .ite Iff.rfl (fun _ _ => .throw (.duplicateFieldAlias (Respelling.shows_of_allows names)))
      fun _ _ => .pure (known.insert _ same)

theorem resolveUnlessNested_alike (use : FieldUse) {field other : Field Q}
    (same : field.Respelled spelling queries other) :
    Resolver.Alike spelling queries (resolveUnlessNested use field) (resolveUnlessNested use other)
      (Field.Respelled spelling queries) :=
  .ite (by rw [same.kind.isSubquery_eq]) (fun _ _ => .pure same) fun _ _ =>
    resolve_alike use field other same

theorem resolveSelected_alike (use : FieldUse) {selected alsoSelected : SelectAliases Q}
    (known : selected.Related (Field.Respelled spelling queries) alsoSelected)
    {fields others : List (Field Q)}
    (same : List.Forall₂ (Field.Respelled spelling queries) fields others) :
    Resolver.Alike spelling queries (resolveSelected use selected fields)
      (resolveSelected use alsoSelected others) fun resolved also =>
        List.Forall₂ (Field.Respelled spelling queries) resolved.1 also.1 ∧
          resolved.2.Related (Field.Respelled spelling queries) also.2 := by
  induction same generalizing selected alsoSelected with
  | nil => exact .pure ⟨.nil, known⟩
  | cons first _ induction =>
      rw [resolveSelected_cons, resolveSelected_cons]
      refine (resolveUnlessNested_alike use first).bind fun _ _ resolved => ?_
      refine (addAlias_alike known resolved).bind fun _ _ known => ?_
      refine (induction known).bind ?_
      rintro ⟨rest, selected⟩ ⟨others, alsoSelected⟩ ⟨later, known⟩
      exact .pure ⟨.cons resolved later, known⟩

theorem selectedFor?_related {selected alsoSelected : SelectAliases Q}
    (known : selected.Related (Field.Respelled spelling queries) alsoSelected) (depth : Nat)
    {key other : Field Q} (same : key.Respelled spelling queries other) :
    Option.Rel (Field.Respelled spelling queries) (selectedFor? selected depth key)
      (selectedFor? alsoSelected depth other) := by
  refine same.kind.path?.bind fun path also paths => ?_
  rw [paths.length_eq]
  split
  · refine (List.Forall₂.getElem? paths depth).bind fun name also names => ?_
    rw [spelling.lowerText_eq names]
    exact known.find? _
  · exact .none

theorem replaceKeys_related {selected alsoSelected : SelectAliases Q}
    (known : selected.Related (Field.Respelled spelling queries) alsoSelected) (depth : Nat)
    (keys : SortedSet String) {groupBy others : List (Field Q)}
    (same : List.Forall₂ (Field.Respelled spelling queries) groupBy others) :
    List.Forall₂ (Field.Respelled spelling queries) (replaceKeys selected depth keys groupBy).1
        (replaceKeys alsoSelected depth keys others).1 ∧
      (replaceKeys selected depth keys groupBy).2 =
        (replaceKeys alsoSelected depth keys others).2 := by
  induction same generalizing keys with
  | nil => exact ⟨.nil, rfl⟩
  | @cons key other rest alsoRest first _ induction =>
      unfold replaceKeys
      rcases (selectedFor?_related known depth first).elim with
        ⟨none, noneToo⟩ | ⟨found, alsoFound, some, someToo, fields⟩
      · rw [none, noneToo]
        exact ⟨.cons first (induction keys).1, (induction keys).2⟩
      · rw [some, someToo]
        dsimp only
        rw [first.key_eq, fields.key_eq]
        exact ⟨.cons fields (induction _).1, (induction _).2⟩

theorem resolveConditions_alike (use : FieldUse) {conditions others : List (Condition (Field Q))}
    (same : Condition.Respelled spelling queries conditions others) :
    Resolver.Alike spelling queries (resolveConditions use conditions)
      (resolveConditions use others) (Condition.Respelled spelling queries) := by
  induction same with
  | nil => exact .pure .nil
  | cons first _ induction =>
      cases first with
      | operand same =>
          rw [resolveConditions_cons, resolveConditions_cons]
          refine (resolveUnlessNested_alike use same).bind fun _ _ resolved => ?_
          exact induction.bind fun _ _ later => .pure (.cons (.operand resolved) later)
      | noop => exact induction.bind fun _ _ later => .pure (.cons .noop later)
      | unknown => exact induction.bind fun _ _ later => .pure (.cons .unknown later)
      | operator op => exact induction.bind fun _ _ later => .pure (.cons (.operator op) later)

end Field

theorem OrderKey.resolve_alike (use : FieldUse) {selected alsoSelected : SelectAliases Q}
    (known : selected.Related (Field.Respelled spelling queries) alsoSelected)
    {order other : OrderKey Q} (same : order.Respelled spelling queries other) :
    Resolver.Alike spelling queries (order.resolve use selected) (other.resolve use alsoSelected)
      (OrderKey.Respelled spelling queries) := by
  have own : Resolver.Alike spelling queries
      (order.field.resolve use >>= fun field => pure { order with field })
      (other.field.resolve use >>= fun field => pure { other with field })
      (OrderKey.Respelled spelling queries) :=
    (Field.resolve_alike use _ _ same.field).bind fun _ _ resolved =>
      .pure { same with field := resolved }
  unfold resolve
  rcases same.field.kind.path?.elim with ⟨none, noneToo⟩ | ⟨path, also, some, someToo, paths⟩
  · rw [none, noneToo]
    exact own
  · rw [some, someToo]
    rcases paths with _ | ⟨names, _ | _⟩
    · exact own
    · dsimp only
      rw [spelling.lowerText_eq names]
      rcases (known.find? _).elim with ⟨none, noneToo⟩ | ⟨found, alsoFound, some, someToo, fields⟩
      · rw [none, noneToo]
        exact own
      · rw [some, someToo]
        exact .pure { same with field := fields }
    · exact own

theorem SourceObject.inOrder_respelled {objects others : List (SourceObject Q)}
    (same : List.Forall₂ (SourceObject.Respelled spelling queries) objects others) :
    List.Forall₂ (SourceObject.Respelled spelling queries) (inOrder objects) (inOrder others) := by
  cases same with
  | nil => exact .nil
  | cons first rest =>
      refine .cons first (rest.mergeSort fun left alsoLeft right alsoRight lefts rights => ?_)
      rw [lefts.path.length_eq, rights.path.length_eq]

namespace Field

mutual

theorem columns_respelled : (field other : Field Q) → field.Respelled spelling queries other →
    List.Forall₂ (Field.Respelled spelling queries) field.columns other.columns
  | ⟨kind, _, _, _, _, _, _⟩, ⟨also, _, _, _, _, _, _⟩, same => by
      unfold columns
      exact kindColumns_respelled kind also _ _ same.kind same

theorem kindColumns_respelled : (kind also : FieldKind Q) → (field other : Field Q) →
    kind.Respelled spelling queries also → field.Respelled spelling queries other →
    List.Forall₂ (Field.Respelled spelling queries) (kindColumns kind field)
      (kindColumns also other)
  | .column _, _, _, _, .column _, same => .cons same .nil
  | .call _ arguments, _, _, _, .call _ alike, _ => by
      unfold kindColumns
      exact allColumns_respelled arguments _ alike
  | .fieldSet _, _, _, _, .fieldSet _, _ | .subquery _, _, _, _, .subquery _, _
  | .literal _, _, _, _, .literal _, _ | .parameter _, _, _, _, .parameter _, _
  | .relativeDate _, _, _, _, .relativeDate _, _ => .nil

theorem allColumns_respelled : (fields others : List (Field Q)) →
    List.Forall₂ (Field.Respelled spelling queries) fields others →
    List.Forall₂ (Field.Respelled spelling queries) (allColumns fields) (allColumns others)
  | [], _, .nil => .nil
  | field :: rest, _, .cons first later => by
      unfold allColumns
      exact List.rel_append (columns_respelled field _ first) (allColumns_respelled rest _ later)

end

theorem firstsOf_respelled (seen : SortedSet String) {fields others : List (Field Q)}
    (same : List.Forall₂ (Field.Respelled spelling queries) fields others) :
    List.Forall₂ (Field.Respelled spelling queries) (firstsOf seen fields)
      (firstsOf seen others) := by
  induction same generalizing seen with
  | nil => exact .nil
  | cons first _ induction =>
      unfold firstsOf
      rw [first.key_eq]
      split
      · exact induction seen
      · exact .cons first (induction _)

end Field

theorem Condition.Respelled.operands {conditions others : List (Condition (Field Q))}
    (same : Condition.Respelled spelling queries conditions others) :
    List.Forall₂ (Field.Respelled spelling queries) (conditions.filterMap Condition.operand?)
      (others.filterMap Condition.operand?) := by
  refine List.Forall₂.filterMap same fun entry also entries => ?_
  cases entries with
  | operand same => exact .some same
  | _ => exact .none

namespace Statement

open Step (Parallel)

variable {statement other : Statement Q}

theorem columns_respelled (same : statement.Respelled spelling queries other) :
    List.Forall₂ (Field.Respelled spelling queries) statement.columns other.columns := by
  refine List.rel_append (List.rel_append (List.rel_append (List.rel_append ?_ ?_) ?_) ?_) ?_
  · exact Field.allColumns_respelled _ _ same.fields
  · exact Field.allColumns_respelled _ _ same.filter.operands
  · exact Field.allColumns_respelled _ _ same.groupBy
  · exact Field.allColumns_respelled _ _ same.having.operands
  · exact (same.orderBy.map fun _ _ orders => orders.field).filter fun _ _ fields =>
      fields.kind.isColumn_eq

theorem selectRead_respelled (same : statement.Respelled spelling queries other) :
    statement.selectRead.Respelled spelling queries other.selectRead := by
  have keys : (statement.fields.filter (·.kind.isColumn)).map (·.key) =
      (other.fields.filter (·.kind.isColumn)).map (·.key) :=
    (same.fields.filter fun _ _ fields => fields.kind.isColumn_eq).map_eq fun _ _ fields =>
      fields.key_eq
  have unselected := Field.firstsOf_respelled
    (SortedSet.ofList ((other.fields.filter (·.kind.isColumn)).map (·.key)))
    (columns_respelled same)
  unfold selectRead
  rw [keys]
  exact { same with
    fields := List.rel_append same.fields (unselected.map fun _ _ fields =>
      .intro fields.kind fields.aliasName rfl fields.aggregated_eq fields.key_eq
        fields.columnId_eq fields.columnIndex_eq) }

end Statement

/-- Faults of one kind, which differ in the names they show at most. -/
inductive CompileError.Respelled (spelling : Respelling) : CompileError → CompileError → Prop where
  | syntactic (error : SyntaxError) :
      CompileError.Respelled spelling (.syntactic error) (.syntactic error)
  | semantic {error fault : SemanticError} (same : error.Respelled spelling fault) :
      CompileError.Respelled spelling (.semantic error) (.semantic fault)
  | internal (error : InternalError) :
      CompileError.Respelled spelling (.internal error) (.internal error)

namespace Statement

open Step (Parallel)

variable {statement other : Statement Q}

/-- Steps that resolve alike what differs in spellings at most. -/
abbrev Resolving.Alike (spelling : Respelling) (queries : Q → Q → Prop) {α β : Type}
    (first : Resolving Q α) (second : Resolving Q β) (values : α → β → Prop) : Prop :=
  Parallel (Scope.Respelled spelling queries) (CompileError.Respelled spelling) (fun _ => False)
    first second values

theorem semantic_alike {α β : Type} {first : Resolver Q α} {second : Resolver Q β}
    {values : α → β → Prop} (alike : Resolver.Alike spelling queries first second values) :
    Resolving.Alike spelling queries (semantic first) (semantic second) values := by
  intro before other related
  unfold semantic EStateM.adaptExcept
  cases run : first before with
  | ok value after =>
      obtain ⟨result, last, runToo, same, scopes⟩ := alike.of_ok related run
      exact ⟨result, last, by rw [runToo], same, scopes⟩
  | error error after =>
      obtain impossible | ⟨fault, last, runToo, same⟩ := alike.of_error related run
      · exact impossible.elim
      · exact .inr ⟨.semantic fault, last, by rw [runToo], .semantic same⟩

theorem distribute_alike {conditions others : List (Condition (Field Q))}
    (same : Condition.Respelled spelling queries conditions others) :
    Resolving.Alike spelling queries (distribute conditions) (distribute others)
      (Condition.Respelled spelling queries) := by
  have distributed := Condition.distribute_related same
  unfold distribute
  generalize Condition.distribute conditions = outcome at distributed ⊢
  generalize Condition.distribute others = also at distributed ⊢
  cases distributed with
  | ok same => exact .pure same
  | error same =>
      subst same
      exact .throw (.internal _)

theorem resolveHaving_alike (use : FieldUse) {primary also : Path}
    (paths : primary.Respelled spelling also) (grouped : Bool)
    {having others : List (Condition (Field Q))}
    (same : Condition.Respelled spelling queries having others) :
    Resolving.Alike spelling queries (resolveHaving use primary grouped having)
      (resolveHaving use also grouped others) (Condition.Respelled spelling queries) := by
  have empty : having.isEmpty = others.isEmpty := by
    cases same <;> rfl
  refine .ite (by rw [empty]) (fun _ _ => .pure same) fun _ _ => ?_
  refine .guarded Iff.rfl (.semantic (.havingWithoutGroupBy paths.shows)) ?_
  exact (distribute_alike same).bind fun _ _ distributed =>
    semantic_alike (Field.resolveConditions_alike use distributed)

theorem resolve_alike (place : QueryPlace) {primary also : Path}
    (paths : primary.Respelled spelling also) (same : statement.Respelled spelling queries other) :
    Resolving.Alike spelling queries (statement.resolve place primary) (other.resolve place also)
      fun resolved alsoResolved => resolved.1.Respelled spelling queries alsoResolved.1 ∧
        resolved.2.Related (Field.Respelled spelling queries) alsoResolved.2 := by
  refine (semantic_alike (Scope.resolveObjects_alike place paths)).bind fun _ _ _ => ?_
  refine (semantic_alike (Field.resolveAll_alike _ _ _ same.groupBy)).bind
    fun groupBy alsoGroupBy groups => ?_
  have keys : groupBy.map (·.key) = alsoGroupBy.map (·.key) :=
    groups.map_eq fun _ _ fields => fields.key_eq
  have counts : statement.fields.any Grouping.counts = other.fields.any Grouping.counts :=
    same.fields.any Grouping.counts_eq
  rw [keys, counts]
  refine .modify_if Iff.rfl (fun _ _ scopes => { scopes with isAggregation := rfl }) ?_
  refine (semantic_alike (Field.resolveSelected_alike _ .empty same.fields)).bind ?_
  rintro ⟨fields, selected⟩ ⟨alsoFields, alsoSelected⟩ ⟨fieldsAlike, known⟩
  refine Parallel.get.bind fun scope scopeToo scopes => ?_
  have replaced := Field.replaceKeys_related known scopeToo.primary.length
    (SortedSet.ofList (alsoGroupBy.map (·.key))) groups
  dsimp only
  rw [scopes.primary.length_eq]
  generalize Field.replaceKeys selected _ _ groupBy = replacing at replaced ⊢
  generalize Field.replaceKeys alsoSelected _ _ alsoGroupBy = alsoReplacing at replaced ⊢
  obtain ⟨groupBy, keys⟩ := replacing
  obtain ⟨alsoGroupBy, alsoKeys⟩ := alsoReplacing
  obtain ⟨groups, rfl⟩ := replaced
  have ungrouped : groupBy.isEmpty = alsoGroupBy.isEmpty := by
    cases groups <;> rfl
  refine (distribute_alike same.filter).bind fun _ _ distributed => ?_
  refine (semantic_alike (Field.resolveConditions_alike _ distributed)).bind fun _ _ filters => ?_
  dsimp only
  rw [ungrouped]
  refine (resolveHaving_alike _ paths _ same.having).bind fun _ _ havings => ?_
  refine (semantic_alike (Parallel.mapM same.orderBy fun _ _ orders =>
    OrderKey.resolve_alike _ known orders)).bind fun _ _ orders => ?_
  refine Parallel.get.bind fun scope scopeToo scopes => .pure ⟨?_, known⟩
  exact selectRead_respelled { same with
    fields := fieldsAlike
    filter := filters
    groupBy := groups
    having := havings
    orderBy := orders
    objects := SourceObject.inOrder_respelled scopes.objects
    isAggregation := scopes.isAggregation }

end Statement

end ObjectQuery
