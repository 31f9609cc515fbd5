import ObjectQuery.Proofs.Compiler.Step
import ObjectQuery.Proofs.Condition.Filter
import ObjectQuery.Proofs.Resolution.Field

namespace ObjectQuery

/-!
The course that resolving the names of a statement takes: what each clause becomes,
and what is known after it. What is true of the result follows from its course.
-/

namespace Statement

variable {Q : Type}

theorem semantic_meets {α : Type} {resolver : Resolver Q α} {before : Scope Q}
    {property : α → Scope Q → Prop} (meets : Step.Meets resolver before property) :
    Step.Meets (semantic resolver) before property CompileError.IsSemantic := by
  unfold Step.Meets at meets ⊢
  unfold semantic EStateM.adaptExcept
  cases run : resolver before with
  | ok value after =>
      rw [run] at meets
      exact meets
  | error error after => exact ⟨error, rfl⟩

/-- The conditions with their negations moved inwards. -/
structure Distributes (conditions distributed : List (Condition (Field Q))) : Prop where
  settled : Condition.distribute conditions = .ok distributed
  filter : Condition.IsFilter distributed
  operands : distributed.filterMap Condition.operand? = conditions.filterMap Condition.operand?

theorem distribute_meets {conditions : List (Condition (Field Q))}
    (filter : Condition.IsFilter conditions) (before : Scope Q) :
    Step.Meets (distribute conditions) before
      (fun distributed after => Distributes conditions distributed ∧ after = before)
      CompileError.IsSemantic := by
  obtain ⟨distributed, settled, form, operands⟩ := filter.distribute
  unfold distribute
  rw [settled]
  exact .pure ⟨⟨settled, form, operands⟩, rfl⟩

/-- Where there are no conditions on grouped rows, this leaves none, whether rows are grouped or not. -/
theorem resolveHaving_meets (use : FieldUse) (primary : Path) (grouped : Bool)
    {having : List (Condition (Field Q))} (filter : Condition.IsFilter having) (before : Scope Q) :
    Step.Meets (resolveHaving use primary grouped having) before
      (fun resolved after => (having ≠ [] → grouped = true) ∧ ∃ distributed,
        Distributes having distributed ∧
          Field.resolveConditions use distributed before = .ok resolved after)
      CompileError.IsSemantic := by
  refine .ite (fun isEmpty => ?_) fun _ => .guarded (fun _ => ⟨_, rfl⟩) fun isGrouped => ?_
  · rw [List.isEmpty_iff.1 isEmpty]
    exact .pure ⟨fun impossible => absurd rfl impossible, [], ⟨rfl, .inl rfl, rfl⟩, rfl⟩
  · refine (distribute_meets filter before).bind ?_
    rintro distributed _ ⟨distributes, rfl⟩
    refine (semantic_meets .itself).mono fun resolved after run => ?_
    exact ⟨fun _ => by simpa using isGrouped, distributed, distributes, run⟩

/-- The clauses of a statement, resolved one after the other, and what is known after each. -/
structure Course (place : QueryPlace) (primary : Path) (statement : Statement Q)
    (before : Scope Q) where
  sourced : Scope Q
  sources : Scope.resolveObjects place primary before = .ok ⟨⟩ sourced
  written : List (Field Q)
  grouping : Scope Q
  groups : Field.resolveAll { place := .groupBy, groupKeys := .empty } statement.groupBy sourced =
    .ok written grouping
  counting : Scope Q
  counts : counting = { grouping with
    isAggregation := grouping.isAggregation || statement.fields.any Grouping.counts }
  fields : List (Field Q)
  selected : SelectAliases Q
  selecting : Scope Q
  selects : Field.resolveSelected
    { place := .select, groupKeys := SortedSet.ofList (written.map (·.key)) } .empty
    statement.fields counting = .ok (fields, selected) selecting
  groupBy : List (Field Q)
  keys : SortedSet String
  replaces : Field.replaceKeys selected selecting.primary.length
    (SortedSet.ofList (written.map (·.key))) written = (groupBy, keys)
  distributed : List (Condition (Field Q))
  distributes : Distributes statement.filter distributed
  filter : List (Condition (Field Q))
  filtering : Scope Q
  filters : Field.resolveConditions { place := .filter, groupKeys := keys } distributed selecting =
    .ok filter filtering
  keyed : statement.having ≠ [] → groupBy ≠ []
  parted : List (Condition (Field Q))
  parts : Distributes statement.having parted
  having : List (Condition (Field Q))
  restricting : Scope Q
  restricts : Field.resolveConditions { place := .having, groupKeys := keys } parted filtering =
    .ok having restricting
  orderBy : List (OrderKey Q)
  ordering : Scope Q
  orders : statement.orderBy.mapM (fun order =>
    order.resolve { place := .orderBy, groupKeys := keys } selected) restricting =
      .ok orderBy ordering

namespace Course

variable {place : QueryPlace} {primary : Path} {statement : Statement Q} {before : Scope Q}

/-- The statement with the clauses that its course leads to. -/
def resolved (course : Course place primary statement before) : Statement Q :=
  { statement with
    fields := course.fields, filter := course.filter, groupBy := course.groupBy
    having := course.having, orderBy := course.orderBy
    objects := SourceObject.inOrder course.ordering.objects
    isAggregation := course.ordering.isAggregation }

theorem labels (course : Course place primary statement before) :
    Field.Labels course.fields course.selected :=
  (Field.resolveSelected_labels _ statement.fields Field.labels_empty trivial course.selects).1

theorem mem_fields_of_find? (course : Course place primary statement before) {key : String}
    {field : Field Q} (found : course.selected.find? key = some field) : field ∈ course.fields :=
  (course.labels.named key field found).1

variable {invariant : Scope Q → Prop} {related : Field Q → Field Q → Prop}

theorem forall₂_fields (course : Course place primary statement before)
    (each : ∀ field ∈ statement.fields, Step.Yields invariant
      (field.resolveUnlessNested
        { place := .select, groupKeys := SortedSet.ofList (course.written.map (·.key)) })
      (related field)) (held : invariant course.counting) :
    List.Forall₂ related statement.fields course.fields ∧ invariant course.selecting :=
  Field.resolveSelected_forall₂ each .empty held course.selects

theorem forall₂_filter (course : Course place primary statement before)
    (each : ∀ field ∈ statement.filter.filterMap Condition.operand?, Step.Yields invariant
      (field.resolveUnlessNested { place := .filter, groupKeys := course.keys }) (related field))
    (held : invariant course.selecting) :
    List.Forall₂ (Condition.Related related) course.distributed course.filter ∧
      invariant course.filtering :=
  Field.resolveConditions_forall₂ (course.distributes.operands ▸ each) held course.filters

theorem forall₂_having (course : Course place primary statement before)
    (each : ∀ field ∈ statement.having.filterMap Condition.operand?, Step.Yields invariant
      (field.resolveUnlessNested { place := .having, groupKeys := course.keys }) (related field))
    (held : invariant course.filtering) :
    List.Forall₂ (Condition.Related related) course.parted course.having ∧
      invariant course.restricting :=
  Field.resolveConditions_forall₂ (course.parts.operands ▸ each) held course.restricts

/-- What each sort key leads to, where the ones before it keep the invariant. -/
theorem forall₂_orderBy (course : Course place primary statement before)
    {related : OrderKey Q → OrderKey Q → Prop}
    (each : ∀ order ∈ statement.orderBy, Step.Yields invariant
      (order.resolve { place := .orderBy, groupKeys := course.keys } course.selected)
      (related order)) (held : invariant course.restricting) :
    List.Forall₂ related statement.orderBy course.orderBy ∧ invariant course.ordering :=
  Step.Yields.mapM each held course.orders

end Course

/-- The names of a statement are resolved along a course, or its author is to blame. -/
theorem resolve_course (place : QueryPlace) (primary : Path) {statement : Statement Q}
    (filtered : Condition.IsFilter statement.filter)
    (grouped : Condition.IsFilter statement.having) (before : Scope Q) :
    Step.Meets (statement.resolve place primary) before
      (fun result after => ∃ course : Course place primary statement before,
        result = (course.resolved.selectRead, course.selected) ∧ after = course.ordering)
      CompileError.IsSemantic := by
  refine (semantic_meets .itself).bind fun _ sourced sources => ?_
  refine (semantic_meets .itself).bind fun written grouping groups => .modify_if ?_
  have counts : (if statement.fields.any Grouping.counts then
      { grouping with isAggregation := true } else grouping) = { grouping with
        isAggregation := grouping.isAggregation || statement.fields.any Grouping.counts } := by
    cases statement.fields.any Grouping.counts <;> simp
  rw [counts]
  refine (semantic_meets .itself).bind ?_
  rintro ⟨fields, selected⟩ selecting selects
  refine .get_bind ?_
  dsimp only
  generalize replaces : Field.replaceKeys selected _ _ written = replaced
  obtain ⟨groupBy, keys⟩ := replaced
  refine (distribute_meets filtered selecting).bind ?_
  rintro distributed selecting ⟨distributes, rfl⟩
  refine (semantic_meets .itself).bind fun filter filtering filters => ?_
  refine (resolveHaving_meets _ primary _ grouped filtering).bind ?_
  rintro having restricting ⟨isGrouped, parted, parts, restricts⟩
  refine (semantic_meets .itself).bind fun orderBy ordering orders => .get_bind (.pure ?_)
  have keyed : statement.having ≠ [] → groupBy ≠ [] := fun given => by
    simpa using isGrouped given
  exact ⟨{
    sourced, sources, written, grouping, groups, counting := _, counts := rfl
    fields, selected, selecting, selects, groupBy, keys, replaces
    distributed, distributes, filter, filtering, filters
    keyed, parted, parts, having, restricting, restricts, orderBy, ordering, orders }, rfl, rfl⟩

end Statement

end ObjectQuery
