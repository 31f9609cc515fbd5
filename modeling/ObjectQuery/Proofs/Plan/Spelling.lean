import ObjectQuery.Plan.PerObject
import ObjectQuery.Proofs.Condition.Related
import ObjectQuery.Proofs.Numbering.Spelling
import ObjectQuery.Proofs.Resolution.SpelledStatement

namespace ObjectQuery

/-! Steps of a compilation side by side, under one limit or under two. -/

namespace CompileError

/-- The queries are nested deeper than is allowed. -/
def IsTooDeep (error : CompileError) : Prop :=
  ∃ depth limit, error = .semantic (.nestingTooDeep depth limit)

end CompileError

namespace Compilation

open Step (Parallel)

variable {spelling : Respelling} {limit alsoLimit : Option Nat} {α β : Type}
  {values : α → β → Prop}

/--
Steps that compile alike what differs in spellings at most. Under different
limits, the first may fail where queries are nested too deep for it.
-/
abbrev Alike (spelling : Respelling) (limit also : Option Nat) (first : Compilation α)
    (second : Compilation β) (values : α → β → Prop) : Prop :=
  Parallel (Session.Alike limit also) (CompileError.Respelled spelling)
    (fun error => limit ≠ also ∧ error.IsTooDeep) first second values

theorem ofState_alike {first : StateM Session α} {second : StateM Session β}
    (aligned : Session.Aligned limit alsoLimit first second values) :
    Alike spelling limit alsoLimit (ofState first) (ofState second) values :=
  fun _ _ sessions =>
    have ⟨same, sessions⟩ := aligned sessions
    ⟨_, _, rfl, same, sessions⟩

theorem ofExcept_alike {outcome : Except CompileError α} {also : Except CompileError β}
    (related : Except.Related (CompileError.Respelled spelling) values outcome also) :
    Alike spelling limit alsoLimit (ofExcept outcome) (ofExcept also) values := by
  intro session other sessions
  cases related with
  | ok same => exact ⟨_, other, rfl, same, sessions⟩
  | error same => exact .inr ⟨_, other, rfl, same⟩

theorem apart_alike (registry : Registry) {first : Compilation α} {second : Compilation β}
    (alike : Alike spelling limit alsoLimit first second values) :
    Alike spelling limit alsoLimit (apart registry first) (apart registry second) values := by
  rintro session _ ⟨limited, rfl⟩
  have begins : Session.Alike limit alsoLimit { session with registry }
      { session with registry, limit := alsoLimit } := ⟨limited, rfl⟩
  unfold apart
  cases run : first { session with registry } with
  | ok value after =>
      obtain ⟨result, _, runToo, same, ⟨limited, rfl⟩⟩ := alike.of_ok begins run
      exact ⟨result, _, by rw [runToo], same, limited, rfl⟩
  | error error after =>
      refine (alike.of_error begins run).imp_right ?_
      rintro ⟨fault, last, runToo, same⟩
      exact ⟨fault, _, by rw [runToo], same⟩

end Compilation

/-!
Statements that differ in spellings at most are planned alike: their objects get
queries that differ in spellings at most, and so do what is left of the filters.
-/

variable {spelling : Respelling} {queries : Query → Query → Prop}

/-- What is known, of queries that differ in spellings at most, while columns get their places. -/
structure Correlation.Respelled (spelling : Respelling) (queries : Query → Query → Prop)
    (correlation other : Correlation) : Prop where
  indexes : correlation.indexes = other.indexes
  parent : Option.Rel (Statement.Respelled spelling queries) correlation.parent other.parent
  isCorrelated : correlation.isCorrelated = other.isCorrelated

namespace Correlation

open Step (Parallel)

/-- Steps that give alike places to what differs in spellings at most. -/
abbrev Step.Alike (spelling : Respelling) (queries : Query → Query → Prop) {α β : Type}
    (first : Step α) (second : Step β) (values : α → β → Prop) : Prop :=
  Parallel (Correlation.Respelled spelling queries) (SemanticError.Respelled spelling)
    (fun _ => False) first second values

theorem fetch?_related (likeness : Likeness spelling queries) (objectKey : String)
    {column other : Field Query} (same : column.Respelled spelling queries other)
    {objects others : List (SourceObject Query)}
    (sources : List.Forall₂ (SourceObject.Respelled spelling queries) objects others) :
    Option.Rel (fun fetched also =>
      List.Forall₂ (SourceObject.Respelled spelling queries) fetched.1 also.1 ∧
        Field.Respelled spelling queries fetched.2 also.2)
      (fetch? objectKey column objects) (fetch? objectKey other others) := by
  induction sources with
  | nil => exact .none
  | @cons object alsoObject _ _ first later induction =>
      have found : (object.key == objectKey) = (alsoObject.key == objectKey) := by rw [first.key]
      unfold fetch?
      rw [found]
      split
      · refine first.plan.map fun plan alsoPlan plans => ?_
        have bodies := likeness.body plans
        have fetched : Field.Respelled spelling queries
            { column with columnIndex := some plan.body.fields.length, notSelected := true }
            { other with columnIndex := some alsoPlan.body.fields.length, notSelected := true } :=
          .intro same.kind same.aliasName rfl same.aggregated_eq same.key_eq same.columnId_eq
            (by rw [bodies.fields.length_eq])
        refine ⟨.cons { first with plan := .some (likeness.of_body ?_) } later, fetched⟩
        exact { bodies with fields := List.rel_append bodies.fields (.cons fetched .nil) }
      · exact induction.map fun _ _ fetched => ⟨.cons first fetched.1, fetched.2⟩

theorem index?_alike (key : String) :
    Step.Alike spelling queries (index? key) (index? key) Eq :=
  Parallel.get.bind fun _ _ states => .pure (by rw [states.indexes])

theorem fetchFromParent_alike (likeness : Likeness spelling queries) {column other : Field Query}
    (same : column.Respelled spelling queries other) :
    Step.Alike spelling queries (fetchFromParent column) (fetchFromParent other) Eq := by
  have paths := same.kind.path?.getD [] [] .nil
  have parents : Path.Respelled spelling (Path.parent (column.kind.path?.getD []))
      (Path.parent (other.kind.path?.getD [])) := paths.dropLast
  have missing : SemanticError.Respelled spelling
      (.ancestorNotFound (Path.render (column.kind.path?.getD [])))
      (.ancestorNotFound (Path.render (other.kind.path?.getD []))) := .ancestorNotFound paths.shows
  refine Parallel.get.bind fun state stateToo states => ?_
  dsimp only
  rw [parents.key_eq]
  rcases states.parent.elim with ⟨none, noneToo⟩ | ⟨parent, also, some, someToo, statements⟩
  · rw [none, noneToo]
    exact .throw missing
  · have fetched := fetch?_related likeness (Path.key (Path.parent (other.kind.path?.getD []))) same
      statements.objects
    rw [some, someToo]
    dsimp only [Option.bind_eq_bind, Option.bind_some]
    rcases fetched.elim with
      ⟨none, noneToo⟩ | ⟨⟨objects, found⟩, ⟨alsoObjects, alsoFound⟩, some, someToo, sources, fields⟩
    · rw [none, noneToo]
      exact .throw missing
    · rw [some, someToo]
      dsimp only [Option.bind_some, Option.pure_def]
      rw [fields.columnIndex_eq, states.indexes, same.key_eq]
      refine (Parallel.set ?_).bind fun _ _ _ => .pure rfl
      exact {
        indexes := rfl
        parent := .some { statements with
          objects := sources
          fields := List.rel_append statements.fields (.cons fields .nil) }
        isCorrelated := states.isCorrelated }

theorem columnIndex_alike (likeness : Likeness spelling queries) (depth : Nat) {path also : Path}
    (paths : path.Respelled spelling also) {column other : Field Query}
    (same : column.Respelled spelling queries other) :
    Step.Alike spelling queries (columnIndex depth path column) (columnIndex depth also other)
      Eq := by
  unfold columnIndex
  rw [same.key_eq, paths.length_eq]
  refine (index?_alike _).bind ?_
  rintro index _ rfl
  refine .ite Iff.rfl (fun _ _ => ?_) fun _ _ => .pure rfl
  refine .modify_bind (fun _ _ states => { states with isCorrelated := rfl }) ?_
  cases index with
  | some index => exact .pure rfl
  | none => exact fetchFromParent_alike likeness same

mutual

theorem indexField_alike (likeness : Likeness spelling queries) (depth : Nat) :
    (field other : Field Query) → field.Respelled spelling queries other →
    Step.Alike spelling queries (indexField depth field) (indexField depth other)
      (Field.Respelled spelling queries)
  | ⟨kind, _, _, _, _, _, _⟩, ⟨also, _, _, _, _, _, _⟩, same => by
      unfold indexField
      exact indexKind_alike likeness depth kind also _ _ same.kind same

theorem indexKind_alike (likeness : Likeness spelling queries) (depth : Nat) :
    (kind also : FieldKind Query) → (field other : Field Query) →
    kind.Respelled spelling queries also → field.Respelled spelling queries other →
    Step.Alike spelling queries (indexKind depth kind field) (indexKind depth also other)
      (Field.Respelled spelling queries)
  | .column _, _, _, _, .column paths, same => by
      unfold indexKind
      refine (columnIndex_alike likeness depth paths same).bind ?_
      rintro index _ rfl
      exact .pure (same.withColumnIndex index)
  | .call _ arguments, _, _, _, .call names alike, same => by
      unfold indexKind
      exact (indexAll_alike likeness depth arguments _ alike).bind fun _ _ indexed =>
        .pure (same.withKind (.call names indexed))
  | .fieldSet _, _, _, _, .fieldSet _, same | .subquery _, _, _, _, .subquery _, same
  | .literal _, _, _, _, .literal _, same | .parameter _, _, _, _, .parameter _, same
  | .relativeDate _, _, _, _, .relativeDate _, same => .pure same

theorem indexAll_alike (likeness : Likeness spelling queries) (depth : Nat) :
    (fields others : List (Field Query)) →
    List.Forall₂ (Field.Respelled spelling queries) fields others →
    Step.Alike spelling queries (indexAll depth fields) (indexAll depth others)
      (List.Forall₂ (Field.Respelled spelling queries))
  | [], _, .nil => .pure .nil
  | field :: rest, _, .cons first later => by
      unfold indexAll
      exact (indexField_alike likeness depth field _ first).bind fun _ _ indexed =>
        (indexAll_alike likeness depth rest _ later).bind fun _ _ others =>
          .pure (.cons indexed others)

end

theorem indexOperand_alike (likeness : Likeness spelling queries) (depth : Nat)
    {field other : Field Query} (same : field.Respelled spelling queries other) :
    Step.Alike spelling queries (indexOperand depth field) (indexOperand depth other)
      (Field.Respelled spelling queries) := by
  obtain ⟨kind, _, _, _, key, _, _⟩ := field
  obtain ⟨also, _, _, _, alsoKey, _, _⟩ := other
  obtain rfl : key = alsoKey := same.key_eq
  have kinds : kind.Respelled spelling queries also := same.kind
  unfold indexOperand
  cases kinds with
  | column =>
      refine (index?_alike _).bind ?_
      rintro index _ rfl
      exact .pure (same.withColumnIndex index)
  | call names alike =>
      exact (indexAll_alike likeness depth _ _ alike).bind fun _ _ indexed =>
        .pure (same.withKind (.call names indexed))
  | _ => exact .pure same

theorem indexConditions_alike (likeness : Likeness spelling queries) (depth : Nat)
    {conditions others : List (Condition (Field Query))}
    (same : Condition.Respelled spelling queries conditions others) :
    Step.Alike spelling queries (indexConditions depth conditions) (indexConditions depth others)
      (Condition.Respelled spelling queries) := by
  refine Parallel.mapM same fun entry other entries => ?_
  cases entries with
  | operand same =>
      exact (indexOperand_alike likeness depth same).bind fun _ _ indexed =>
        .pure (.operand indexed)
  | noop => exact .pure .noop
  | unknown => exact .pure .unknown
  | operator op => exact .pure (.operator op)

theorem indexOrderKey_alike {order other : OrderKey Query}
    (same : order.Respelled spelling queries other) :
    Step.Alike spelling queries (indexOrderKey order) (indexOrderKey other)
      (OrderKey.Respelled spelling queries) := by
  unfold indexOrderKey
  rw [same.field.key_eq]
  refine (index?_alike _).bind ?_
  rintro index _ rfl
  exact .pure { same with field := same.field.withColumnIndex index }

theorem indexStatement_alike (likeness : Likeness spelling queries)
    {statement other : Statement Query} (same : statement.Respelled spelling queries other) :
    Step.Alike spelling queries (indexStatement statement) (indexStatement other)
      (Statement.Respelled spelling queries) := by
  have depths : (statement.objects.head?.map (·.path.length)).getD 0 =
      (other.objects.head?.map (·.path.length)).getD 0 :=
    (same.objects.head?.map fun _ _ objects => objects.path.length_eq).getD _ _ rfl
  unfold indexStatement
  rw [depths]
  refine (indexAll_alike likeness _ _ _ same.fields).bind fun _ _ fields => ?_
  refine (Parallel.mapM same.orderBy fun _ _ => indexOrderKey_alike).bind fun _ _ orderBy => ?_
  refine (indexAll_alike likeness _ _ _ same.groupBy).bind fun _ _ groupBy => ?_
  refine (indexConditions_alike likeness _ same.filter).bind fun _ _ filter => ?_
  refine (indexConditions_alike likeness _ same.having).bind fun _ _ having => ?_
  refine Parallel.get.bind fun _ _ states => .pure ?_
  exact { same with
    fields, orderBy, groupBy, filter, having
    isCorrelated := by rw [same.isCorrelated, states.isCorrelated] }

end Correlation

namespace SourceObject

theorem ownFields_respelled {path also : Path} (paths : path.Respelled spelling also)
    {fields others : List (Field Query)}
    (same : List.Forall₂ (Field.Respelled spelling queries) fields others) :
    List.Forall₂ (Field.Respelled spelling queries) (ownFields path fields)
      (ownFields also others) :=
  (same.filter fun _ _ fields => fields.isOf_eq paths).mapIdx fun index _ _ fields =>
    fields.withColumnIndex (some index)

theorem withPlan_respelled (likeness : Likeness spelling queries) {fields others : List (Field Query)}
    (same : List.Forall₂ (Field.Respelled spelling queries) fields others)
    {object other : SourceObject Query} (objects : object.Respelled spelling queries other) :
    (object.withPlan fields).Respelled spelling queries (other.withPlan others) := by
  have source : SourceObject.Respelled spelling queries { object with plan := none }
      { other with plan := none } := { objects with plan := .none }
  exact { objects with
    plan := .some (likeness.of_body { Statement.Respelled.empty with
      objects := .cons source .nil
      fields := ownFields_respelled objects.path same }) }

theorem addIndexes_eq (likeness : Likeness spelling queries) (indexes : SortedMap String Nat)
    {object other : SourceObject Query} (objects : object.Respelled spelling queries other) :
    object.addIndexes indexes = other.addIndexes indexes := by
  have fields := (objects.plan.map fun _ _ plans => (likeness.body plans).fields).getD [] [] .nil
  refine fields.foldl Eq rfl ?_
  rintro indexes _ field other rfl same
  rw [same.key_eq, same.columnIndex_eq]

theorem withShare_respelled (likeness : Likeness spelling queries) {statement other : Statement Query}
    (same : statement.Respelled spelling queries other)
    {tree alsoTree : Option (ConditionTree (Field Query))}
    (trees : Option.Rel (ConditionTree.Related (Field.Respelled spelling queries)) tree alsoTree)
    (isPrimary : Bool) {object also : SourceObject Query}
    (objects : object.Respelled spelling queries also) :
    (object.withShare statement tree isPrimary).Respelled spelling queries
      (also.withShare other alsoTree isPrimary) := by
  have shared : Condition.Respelled spelling queries
      ((tree.map fun tree => (tree.shareOf object.path).2).getD [])
      ((alsoTree.map fun tree => (tree.shareOf also.path).2).getD []) :=
    (trees.map fun _ _ trees => trees.share fun _ _ fields =>
      fields.isReadBy_eq objects.path).getD [] [] .nil
  have belongs : (statement.filter.filterMap Condition.operand?).any (·.belongsTo object.path) =
      (other.filter.filterMap Condition.operand?).any (·.belongsTo also.path) :=
    same.filter.operands.any fun _ _ fields => fields.belongsTo_eq objects.path
  have empty : ((tree.map fun tree => (tree.shareOf object.path).2).getD []).isEmpty =
      ((alsoTree.map fun tree => (tree.shareOf also.path).2).getD []).isEmpty := by
    revert shared
    generalize (tree.map fun tree => (tree.shareOf object.path).2).getD [] = list
    generalize (alsoTree.map fun tree => (tree.shareOf also.path).2).getD [] = others
    intro shared
    cases shared <;> rfl
  refine { objects with
    hasConditions := belongs
    innerJoin := by
      unfold withShare
      dsimp only
      rw [empty]
    plan := objects.plan.map fun plan alsoPlan plans => likeness.of_body ?_ }
  exact { likeness.body plans with
    filter := shared
    orderBy := same.orderBy.filter fun _ _ orders => orders.field.belongsTo_eq objects.path
    bounds := by
      dsimp only
      split
      · exact same.bounds
      · exact ⟨.none, .none⟩
    access := same.access }

theorem shareAll_respelled (likeness : Likeness spelling queries) {statement other : Statement Query}
    (same : statement.Respelled spelling queries other)
    {tree alsoTree : Option (ConditionTree (Field Query))}
    (trees : Option.Rel (ConditionTree.Related (Field.Respelled spelling queries)) tree alsoTree)
    {objects others : List (SourceObject Query)}
    (sources : List.Forall₂ (SourceObject.Respelled spelling queries) objects others) :
    List.Forall₂ (SourceObject.Respelled spelling queries) (shareAll statement tree objects)
      (shareAll other alsoTree others) := by
  cases sources with
  | nil => exact .nil
  | cons first later =>
      exact .cons (withShare_respelled likeness same trees true first)
        (later.map fun _ _ => withShare_respelled likeness same trees false)

end SourceObject

namespace Statement

open Step (Parallel)

variable {limit alsoLimit : Option Nat} {statement other : Statement Query}

theorem indexColumns_alike (likeness : Likeness spelling queries)
    (same : statement.Respelled spelling queries other) {parent also : Option (Statement Query)}
    (parents : Option.Rel (Statement.Respelled spelling queries) parent also) :
    Compilation.Alike spelling limit alsoLimit (statement.indexColumns parent)
      (other.indexColumns also) fun indexed alsoIndexed =>
        indexed.1.Respelled spelling queries alsoIndexed.1 ∧
          Option.Rel (Statement.Respelled spelling queries) indexed.2 alsoIndexed.2 := by
  rintro session _ ⟨limited, rfl⟩
  have begins : Correlation.Respelled spelling queries
      { indexes := session.registry.columnIndexes, parent }
      { indexes := session.registry.columnIndexes, parent := also } := ⟨rfl, parents, rfl⟩
  have indexing := Correlation.indexStatement_alike likeness same
  unfold indexColumns
  dsimp only
  cases run : Correlation.indexStatement statement
    { indexes := session.registry.columnIndexes, parent } with
  | ok indexed after =>
      obtain ⟨alsoIndexed, last, runToo, statements, states⟩ := indexing.of_ok begins run
      rw [runToo]
      dsimp only
      refine ⟨_, _, rfl, ⟨statements, states.parent⟩, limited, ?_⟩
      rw [states.indexes]
  | error error after =>
      obtain impossible | ⟨fault, last, runToo, faults⟩ := indexing.of_error begins run
      · exact impossible.elim
      · rw [runToo]
        exact .inr ⟨_, _, rfl, .semantic faults⟩

theorem filterTree_alike {conditions others : List (Condition (Field Query))}
    (same : Condition.Respelled spelling queries conditions others) :
    Compilation.Alike spelling limit alsoLimit (filterTree conditions) (filterTree others)
      (Option.Rel (ConditionTree.Related (Field.Respelled spelling queries))) := by
  have trees := ConditionTree.ofPostfix_related same
  unfold filterTree
  generalize ConditionTree.ofPostfix conditions = outcome at trees ⊢
  generalize ConditionTree.ofPostfix others = also at trees ⊢
  cases trees with
  | ok same => exact .pure same
  | error same =>
      subst same
      exact .throw (.internal _)

theorem residualOf_related {conditions others : List (Condition (Field Query))}
    (same : Condition.Respelled spelling queries conditions others)
    {tree alsoTree : Option (ConditionTree (Field Query))}
    (trees : Option.Rel (ConditionTree.Related (Field.Respelled spelling queries)) tree alsoTree)
    {paths also : List Path} (alike : List.Forall₂ (Path.Respelled spelling) paths also) :
    Except.Related Eq (Condition.Respelled spelling queries)
      (Condition.residualOf conditions tree paths) (Condition.residualOf others alsoTree also) :=
  Condition.residual_related same trees
    (alike.map fun _ _ paths => fun _ _ fields => fields.isReadBy_eq paths)

theorem plan_alike (likeness : Likeness spelling queries)
    (same : statement.Respelled spelling queries other) {parent also : Option (Statement Query)}
    (parents : Option.Rel (Statement.Respelled spelling queries) parent also) :
    Compilation.Alike spelling limit alsoLimit (statement.plan parent) (other.plan also)
      fun planned alsoPlanned => planned.1.Respelled spelling queries alsoPlanned.1 ∧
        Option.Rel (Statement.Respelled spelling queries) planned.2 alsoPlanned.2 := by
  have objects := same.objects.map fun _ _ objects =>
    SourceObject.withPlan_respelled likeness same.fields objects
  have indexes (indexes : SortedMap String Nat) :
      (statement.objects.map (·.withPlan statement.fields)).foldl SourceObject.addIndexes indexes =
        (other.objects.map (·.withPlan other.fields)).foldl SourceObject.addIndexes indexes := by
    refine objects.foldl Eq rfl ?_
    rintro indexes _ object also rfl objects
    exact SourceObject.addIndexes_eq likeness indexes objects
  unfold plan
  refine .modify_bind ?_ ?_
  · rintro session _ ⟨limited, rfl⟩
    refine ⟨limited, ?_⟩
    dsimp only
    rw [indexes]
  have planned : Statement.Respelled spelling queries
      { statement with objects := statement.objects.map (·.withPlan statement.fields) }
      { other with objects := other.objects.map (·.withPlan other.fields) } :=
    { same with objects }
  refine (indexColumns_alike likeness planned parents).bind ?_
  rintro ⟨indexed, parent⟩ ⟨alsoIndexed, also⟩ ⟨statements, parents⟩
  refine (filterTree_alike statements.filter).bind fun tree alsoTree trees => ?_
  have shared := SourceObject.shareAll_respelled likeness statements trees statements.objects
  have residual := residualOf_related statements.filter trees
    (shared.map fun _ _ objects => objects.path)
  dsimp only at residual ⊢
  generalize Condition.residualOf indexed.filter tree _ = outcome at residual ⊢
  generalize Condition.residualOf alsoIndexed.filter alsoTree _ = alsoOutcome at residual ⊢
  cases residual with
  | ok residual => exact .pure ⟨{ statements with objects := shared, residual }, parents⟩
  | error count =>
      subst count
      exact .throw (.internal _)

end Statement

end ObjectQuery
