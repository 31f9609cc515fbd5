import ObjectQuery.Proofs.Query.Column
import ObjectQuery.Proofs.Query.Nested
import ObjectQuery.Proofs.Resolution.Course

namespace ObjectQuery

/-!
Resolving names leaves the queries nested in a statement as they are. Of the
scope, it changes the objects by registering more of them.
-/

namespace Scope

variable {Q : Type}

/-- What holds of a scope whatever paths are qualified in it, and whatever is mentioned. -/
structure Lasting (invariant : Scope Q → Prop) : Prop where
  qualify : ∀ registers path, Step.Yields invariant (qualify registers path) fun _ => True
  mention : ∀ scope isAggregation mentions, invariant scope →
    invariant { scope with isAggregation, mentions }

section

variable {invariant : Scope Q → Prop}

theorem walkWithin_keeps
    (register : ∀ scope path, scope.aliases.find? path.key = none → invariant scope →
      invariant (scope.register path))
    {registers : Bool} {steps index : Nat} {path reached : Path} {scope after : Scope Q}
    (held : invariant scope)
    (arrives : walkWithin registers steps index path scope = .arrived reached after) :
    invariant after := by
  induction steps generalizing index path scope with
  | zero => cases arrives
  | succ steps induction =>
      unfold walkWithin at arrives
      split at arrives
      · dsimp only at arrives
        split at arrives
        · exact induction held arrives
        · rename_i unknown
          split at arrives
          · exact induction (register _ _ unknown held) arrives
          · cases arrives
      · cases arrives
        exact held

theorem walk_keeps
    (register : ∀ scope path, scope.aliases.find? path.key = none → invariant scope →
      invariant (scope.register path))
    {registers : Bool} {path reached : Path} {scope after : Scope Q} (held : invariant scope)
    (walked : scope.walk registers path = some (reached, after)) : invariant after := by
  unfold walk at walked
  split at walked
  · cases walked
    exact walkWithin_keeps register held ‹_›
  · cases walked
  · cases walked
    exact held

theorem qualify_yields
    (register : ∀ scope path, scope.aliases.find? path.key = none → invariant scope →
      invariant (scope.register path))
    (registers : Bool) (path : Path) :
    Step.Yields invariant (qualify registers path) fun _ => True := by
  refine Step.Yields.get.bind fun scope held => ?_
  dsimp only
  split
  · exact .pure trivial
  · split
    · exact .throw
    · exact (Step.Yields.set (walk_keeps register held ‹_›)).bind fun _ _ => .pure trivial

end

theorem lasting_objects_ne_nil : Lasting fun scope : Scope Q => scope.objects ≠ [] where
  qualify := qualify_yields fun _ _ _ _ => by simp [register]
  mention _ _ _ nonempty := nonempty

end Scope

/-- Each field stands for the query that it stood for. -/
theorem Scope.Lasting.resolving {invariant : Scope Q → Prop} (lasting : Scope.Lasting invariant) :
    Field.Resolving invariant (fun _ _ => True)
      fun _ field resolved => resolved.kind.query? = field.kind.query? where
  mention scope := lasting.mention scope scope.isAggregation
  count _ _ _ _ scope := lasting.mention scope true scope.mentions
  arguments _ _ _ _ := trivial
  column _ kind := Field.resolveColumn_yields (lasting.qualify _ _) (fun _ => rfl)
    fun _ _ _ _ _ => by rw [kind]; rfl
  fieldSet _ kind := Field.resolveFieldSet_yields fun _ => by rw [kind]; rfl
  call _ kind _ := Field.resolveCall_yields fun _ => by rw [kind]; rfl
  unchanged _ _ _ := rfl

namespace SourceObject

theorem length_inOrder (objects : List (SourceObject Q)) :
    (inOrder objects).length = objects.length := by
  cases objects <;> simp [inOrder]

theorem resolveAll_yields (primary : Path) (ownPrimary : Bool) (used : SortedSet String)
    (objects : List (SourceObject Q)) :
    Step.Yields (fun _ => True) (resolveAll primary ownPrimary used objects) fun resolved =>
      resolved.length = objects.length := by
  induction objects generalizing ownPrimary used with
  | nil => exact .pure rfl
  | cons object rest induction =>
      refine .after fun scope => .after fun _ => .after fun used => ?_
      exact (induction false used).bind fun others same => .pure (congrArg Nat.succ same)

end SourceObject

namespace Scope

theorem resolveObjects_meets (place : QueryPlace) (primary : Path) {before : Scope Q}
    (nonempty : before.objects ≠ []) :
    Step.Meets (resolveObjects place primary) before fun _ after => after.objects ≠ [] := by
  refine .get_bind (.modify_bind ?_)
  refine ((SourceObject.resolveAll_yields primary _ .empty before.objects).meets trivial).bind ?_
  rintro resolved after ⟨length, _⟩
  change resolved ++ after.objects ≠ []
  intro none
  have empty := congrArg List.length none
  rw [List.length_append, length] at empty
  exact nonempty (List.eq_nil_of_length_eq_zero (Nat.eq_zero_of_add_eq_zero empty).1)

end Scope

namespace Condition

/-- The queries in conditions depend on what their operands stand for. -/
theorem filterMap_query?_of_map_eq {before after : List (Condition (Field Q))}
    (same : after.map (Condition.map (·.kind.query?)) =
      before.map (Condition.map (·.kind.query?))) :
    after.filterMap query? = before.filterMap query? := by
  have shown : (query? : Condition (Field Q) → Option Q) =
      (fun entry => entry.operand?.join) ∘ Condition.map (·.kind.query?) := by
    funext entry
    cases entry <;> rfl
  rw [shown, ← List.filterMap_map, ← List.filterMap_map, same]

theorem filterMap_query?_of_operands {before after : List (Condition (Field Q))}
    (same : after.filterMap operand? = before.filterMap operand?) :
    after.filterMap query? = before.filterMap query? := by
  have through (list : List (Condition (Field Q))) :
      list.filterMap query? = (list.filterMap operand?).filterMap (·.kind.query?) :=
    (List.filterMap_filterMap ..).symm
  rw [through, through, same]

end Condition

namespace Statement

variable {Q : Type}

/-- The columns that are selected because they are read nest no queries. -/
theorem nested_selectRead (statement : Statement Q) :
    statement.selectRead.nested = statement.nested := by
  have added : (Field.firstsOf (SortedSet.ofList
      ((statement.fields.filter (·.kind.isColumn)).map (·.key))) statement.columns).filterMap
        (·.kind.query?) = [] := by
    rw [List.filterMap_eq_nil_iff]
    intro column member
    exact Field.query?_of_isColumn
      (isColumn_of_mem_columns (Field.mem_of_mem_firstsOf member))
  simp only [nested_eq, selectRead, List.filterMap_append, List.filterMap_map]
  have appended := congrArg (statement.fields.filterMap (·.kind.query?) ++ ·) added
  simpa [Function.comp_def] using appended

/-- What conditions are when the names in them are resolved. -/
structure ResolvesConditions (before after : List (Condition (Field Q))) : Prop where
  filter : Condition.IsFilter after
  nested : after.filterMap Condition.query? = before.filterMap Condition.query?

theorem Distributes.resolves {conditions distributed resolved : List (Condition (Field Q))}
    (distributes : Distributes conditions distributed)
    (entries : List.Forall₂
      (Condition.Related fun field resolved => resolved.kind.query? = field.kind.query?)
      distributed resolved) :
    ResolvesConditions conditions resolved := by
  have alike := Condition.map_eq_of_forall₂_related entries
  refine ⟨distributes.filter.of_map_eq alike, ?_⟩
  rw [Condition.filterMap_query?_of_map_eq alike,
    Condition.filterMap_query?_of_operands distributes.operands]

namespace Course

variable {place : QueryPlace} {primary : Path} {statement : Statement Q} {before : Scope Q}

/-- What holds of all that is known from the resolved objects on. -/
structure Keeps (course : Course place primary statement before) (invariant : Scope Q → Prop) :
    Prop where
  sourced : invariant course.sourced
  grouping : invariant course.grouping
  counting : invariant course.counting
  selecting : invariant course.selecting
  filtering : invariant course.filtering
  restricting : invariant course.restricting
  ordering : invariant course.ordering

theorem keeps (course : Course place primary statement before) {invariant : Scope Q → Prop}
    (lasting : Scope.Lasting invariant) (sourced : invariant course.sourced) :
    course.Keeps invariant := by
  have each (use : FieldUse) (field : Field Q) :=
    lasting.resolving.resolveUnlessNested use field trivial
  obtain ⟨_, grouping⟩ :=
    lasting.resolving.resolveAll _ _ (fun _ _ => trivial) sourced course.groups
  have counting : invariant course.counting :=
    course.counts ▸ lasting.mention course.grouping _ _ grouping
  obtain ⟨_, selecting⟩ := course.forall₂_fields (fun field _ => each _ field) counting
  obtain ⟨_, filtering⟩ := course.forall₂_filter (fun field _ => each _ field) selecting
  obtain ⟨_, restricting⟩ := course.forall₂_having (fun field _ => each _ field) filtering
  obtain ⟨_, ordering⟩ := course.forall₂_orderBy
    (fun order _ => OrderKey.resolve_yields (fun _ => True) (fun _ _ _ _ => trivial) fun _ =>
      (lasting.resolving.resolve _ order.field trivial).mono fun _ _ => trivial) restricting
  exact ⟨sourced, grouping, counting, selecting, filtering, restricting, ordering⟩

end Course

/-- What resolving names keeps of a statement that is read. -/
structure Resolves (before after : Statement Q) : Prop where
  id : after.id = before.id
  parentId : after.parentId = before.parentId
  nested : after.nested = before.nested
  objects : after.objects ≠ []
  filter : Condition.IsFilter after.filter
  bounds : after.bounds = before.bounds

theorem resolve_meets (place : QueryPlace) (primary : Path) {statement : Statement Q}
    (filtered : Condition.IsFilter statement.filter) (grouped : Condition.IsFilter statement.having)
    {before : Scope Q} (nonempty : before.objects ≠ []) :
    Step.Meets (statement.resolve place primary) before
      (fun result _ => statement.Resolves result.1) CompileError.IsSemantic := by
  refine (resolve_course place primary filtered grouped before).mono ?_
  rintro _ _ ⟨course, rfl, rfl⟩
  have sourced := (Scope.resolveObjects_meets place primary nonempty).of_ok course.sources
  have keeps := course.keeps Scope.lasting_objects_ne_nil sourced
  have each (use : FieldUse) (field : Field Q) :=
    Scope.lasting_objects_ne_nil.resolving.resolveUnlessNested use field trivial
  obtain ⟨fields, _⟩ := course.forall₂_fields (fun field _ => each _ field) keeps.counting
  obtain ⟨filters, _⟩ := course.forall₂_filter (fun field _ => each _ field) keeps.selecting
  obtain ⟨havings, _⟩ := course.forall₂_having (fun field _ => each _ field) keeps.filtering
  have filter := course.distributes.resolves filters
  have having := course.parts.resolves havings
  refine ⟨rfl, rfl, ?_, ?_, filter.filter, rfl⟩
  · rw [nested_selectRead, nested_eq, nested_eq, Course.resolved, filter.nested, having.nested]
    have fieldsSame := congrArg (List.filterMap fun nested => nested) (Step.map_eq_of_forall₂ fields)
    simp only [List.filterMap_map] at fieldsSame
    exact congrArg (· ++ _ ++ _) fieldsSame
  · intro none
    have length := congrArg List.length none
    exact keeps.ordering (List.eq_nil_of_length_eq_zero
      ((SourceObject.length_inOrder _).symm.trans length))

end Statement

end ObjectQuery
