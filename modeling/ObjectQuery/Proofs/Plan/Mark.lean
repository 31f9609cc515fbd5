import ObjectQuery.Proofs.Compiler.Statement
import ObjectQuery.Proofs.Numbering.Column

namespace ObjectQuery

/-!
Planning leaves the numbers of fields as they are. What stays true of the query
around a list of related rows, while columns are fetched from it, is true after
planning. The columns that are fetched keep their numbers.
-/

namespace Statement

/-- The statement with more fields, each of them a column with one of the marks. -/
structure Borrows (marks : List Mark) (before after : Statement Query) : Prop where
  added : ∃ added, after.fields = before.fields ++ added ∧
    ∀ field ∈ added, ∃ mark ∈ marks, mark.isColumn = true ∧ field.marks = [mark]

theorem Borrows.refl (marks : List Mark) (statement : Statement Query) :
    Borrows marks statement statement :=
  ⟨[], by simp, by simp⟩

theorem Borrows.fetch {marks : List Mark} {before after : Statement Query}
    (borrows : Borrows marks before after) (objects : List (SourceObject Query))
    {field : Field Query} {mark : Mark} (member : mark ∈ marks) (column : mark.isColumn = true)
    (same : field.marks = [mark]) :
    Borrows marks before { after with objects, fields := after.fields ++ [field] } := by
  obtain ⟨added, fields, held⟩ := borrows.added
  refine ⟨added ++ [field], ?_, ?_⟩
  · rw [fields, List.append_assoc]
  · exact List.forall_mem_append.2 ⟨held, List.forall_mem_singleton.2 ⟨mark, member, column, same⟩⟩

end Statement

namespace Correlation

/--
What stays true while columns are given places, some of which may be fetched from
the query around. Those that are fetched had no place before.
-/
structure Carries (allowed : Field Query → Prop) (depth : Nat) (invariant : Correlation → Prop) :
    Prop where
  correlated : ∀ {correlation : Correlation}, invariant correlation →
    invariant { correlation with isCorrelated := true }
  fetched : ∀ {correlation : Correlation} {parent : Statement Query} {path : Path}
    {column fetched : Field Query} {objects : List (SourceObject Query)} (index : Nat),
    invariant correlation → correlation.parent = some parent → allowed column →
    column.kind = .column path → path.length ≤ depth →
    correlation.indexes.find? column.key = none →
    Fetches path.parent.key column parent.objects objects fetched →
    invariant { correlation with
      parent := some { parent with objects, fields := parent.fields ++ [fetched] }
      indexes := correlation.indexes.insert column.key index }

section Carries

variable {allowed : Field Query → Prop} {depth : Nat} {invariant : Correlation → Prop}

theorem index?_yields (key : String) :
    Step.Yields invariant (index? key) fun _ => True :=
  Step.Yields.get.bind fun _ _ => .pure trivial

theorem columnIndex_carries (carries : Carries allowed depth invariant) {path : Path}
    {column : Field Query} (kind : column.kind = .column path) (allows : allowed column) :
    Step.Yields invariant (columnIndex depth path column) fun _ => True := by
  -- That a column has no place when it is fetched is known of the state that its place is read in.
  intro before place after held run
  suffices meets : Step.Meets (columnIndex depth path column) before fun _ after =>
      invariant after from ⟨trivial, meets.of_ok run⟩
  refine .get_bind (.ite (fun short => .modify_bind ?_) fun _ => .pure held)
  split
  · exact .pure (carries.correlated held)
  · rename_i absent
    refine .get_bind ?_
    dsimp only
    split
    · exact .throw trivial
    · rename_i around fetched fetching
      obtain ⟨parent, present, inner⟩ := Option.bind_eq_some_iff.1 fetching
      obtain ⟨⟨objects, found⟩, fetch, pair⟩ := Option.bind_eq_some_iff.1 inner
      cases pair
      rw [kind] at fetch
      exact .set_bind (.pure (carries.fetched _ (carries.correlated held) present allows kind short
        absent (fetches_of_fetch? fetch)))

mutual

theorem indexField_carries (carries : Carries allowed depth invariant) : (field : Field Query) →
    (∀ column ∈ field.columns, allowed column) →
    Step.Yields invariant (indexField depth field) fun indexed => indexed.marks = field.marks
  | ⟨kind, _, _, _, _, _, _⟩, allows => by
      unfold indexField
      exact indexKind_carries carries kind _ rfl allows

theorem indexKind_carries (carries : Carries allowed depth invariant) :
    (kind : FieldKind Query) → (field : Field Query) →
    field.kind = kind → (∀ column ∈ field.columns, allowed column) →
    Step.Yields invariant (indexKind depth kind field) fun indexed => indexed.marks = field.marks
  | .column path, field, same, allows => by
      unfold indexKind
      have own : allowed field := allows field (by simp [Field.columns_eq, same, Field.kindColumns])
      refine (columnIndex_carries carries same own).bind fun _ _ => .pure ?_
      rw [Field.marks_eq, Field.marks_eq]
      rfl
  | .call name arguments, field, same, allows => by
      unfold indexKind
      rw [Field.columns_eq, same, Field.kindColumns] at allows
      refine (indexAll_carries carries arguments allows).bind fun indexed alike => .pure ?_
      rw [Field.marks_eq, Field.marks_eq, same, FieldKind.marks, FieldKind.marks, alike]
      simp only [Field.mark, same]
      rfl
  | .fieldSet _, _, _, _ | .subquery _, _, _, _ | .literal _, _, _, _
  | .parameter _, _, _, _ | .relativeDate _, _, _, _ => .pure rfl

theorem indexAll_carries (carries : Carries allowed depth invariant) :
    (fields : List (Field Query)) →
    (∀ column ∈ Field.allColumns fields, allowed column) →
    Step.Yields invariant (indexAll depth fields) fun indexed =>
      Field.allMarks indexed = Field.allMarks fields
  | [], _ => .pure rfl
  | field :: rest, allows => by
      unfold indexAll
      rw [Field.allColumns, List.forall_mem_append] at allows
      refine (indexField_carries carries field allows.1).bind fun first same => ?_
      refine (indexAll_carries carries rest allows.2).bind fun others alike => .pure ?_
      rw [Field.allMarks, Field.allMarks, same, alike]

end

theorem indexOperand_carries (carries : Carries allowed depth invariant) (field : Field Query)
    (allows : ∀ column ∈ field.columns, allowed column) :
    Step.Yields invariant (indexOperand depth field) fun indexed =>
      indexed.marks = field.marks := by
  unfold indexOperand
  split
  · refine (index?_yields field.key).bind fun _ _ => .pure ?_
    rw [Field.marks_eq, Field.marks_eq]
    rfl
  · rename_i name arguments kind
    rw [Field.columns_eq, kind, Field.kindColumns] at allows
    refine (indexAll_carries carries arguments allows).bind fun indexed alike => .pure ?_
    rw [Field.marks_eq, Field.marks_eq, kind, FieldKind.marks, FieldKind.marks, alike]
    simp only [Field.mark, kind]
    rfl
  · exact .pure rfl

theorem indexConditions_carries (carries : Carries allowed depth invariant)
    (conditions : List (Condition (Field Query)))
    (allows : ∀ column ∈ Field.allColumns (conditions.filterMap Condition.operand?),
      allowed column) :
    Step.Yields invariant (indexConditions depth conditions)
      fun indexed => Field.allMarks (indexed.filterMap Condition.operand?) =
        Field.allMarks (conditions.filterMap Condition.operand?) := by
  simp only [Field.allMarks_operands]
  suffices kept : Step.Yields invariant (indexConditions depth conditions)
      (List.Forall₂ (fun entry indexed => Field.operandMarks indexed = Field.operandMarks entry)
        conditions) by
    refine kept.mono fun indexed same => ?_
    rw [List.flatMap_def, List.flatMap_def, Step.map_eq_of_forall₂ same]
  refine Step.Yields.mapM fun entry member => ?_
  cases entry with
  | operand field =>
      refine (indexOperand_carries carries field fun column own => ?_).bind fun indexed same =>
        .pure same
      exact allows column (Field.mem_allColumns.2
        ⟨field, List.mem_filterMap.2 ⟨_, member, rfl⟩, own⟩)
  | noop | unknown | operator op => exact .pure rfl

theorem indexOrders_yields (orders : List (OrderKey Query)) :
    Step.Yields invariant (orders.mapM indexOrderKey)
      fun indexed => Field.allMarks (indexed.map (·.field)) =
        Field.allMarks (orders.map (·.field)) := by
  have each : ∀ order ∈ orders, Step.Yields invariant (indexOrderKey order)
      fun indexed => indexed.field.marks = order.field.marks := by
    intro order _
    refine (index?_yields order.field.key).bind fun _ _ => .pure ?_
    rw [Field.marks_eq, Field.marks_eq]
    rfl
  refine (Step.Yields.mapM each).mono fun indexed same => ?_
  simp only [Field.allMarks_eq_flatMap, List.flatMap_map]
  rw [List.flatMap_def, List.flatMap_def, Step.map_eq_of_forall₂ same]

theorem indexStatement_carries {statement : Statement Query}
    (carries : Carries allowed statement.primaryLength invariant)
    (allows : ∀ column ∈ statement.columns, allowed column) :
    Step.Yields invariant (indexStatement statement)
      fun indexed => indexed.marks = statement.marks := by
  simp only [Statement.columns, List.forall_mem_append] at allows
  obtain ⟨⟨⟨⟨inFields, inFilter⟩, inGroups⟩, inHaving⟩, _⟩ := allows
  simp only [Statement.marks_eq]
  refine (indexAll_carries carries statement.fields inFields).bind fun fields same => ?_
  refine (indexOrders_yields statement.orderBy).bind fun orderBy ordered => ?_
  refine (indexAll_carries carries statement.groupBy inGroups).bind fun groupBy grouped => ?_
  refine (indexConditions_carries carries statement.filter inFilter).bind fun filter filtered => ?_
  refine (indexConditions_carries carries statement.having inHaving).bind
    fun having restricted => ?_
  refine Step.Yields.get.bind fun _ _ => .pure ?_
  rw [same, ordered, grouped, filtered, restricted]

end Carries

/-- The query around has been borrowed from. -/
def Borrowing (marks : List Mark) (start : Option (Statement Query))
    (correlation : Correlation) : Prop :=
  Option.Rel (Statement.Borrows marks) start correlation.parent

theorem carries_borrowing (marks : List Mark) (start : Option (Statement Query)) (depth : Nat) :
    Carries (fun column => column.mark ∈ marks) depth (Borrowing marks start) where
  correlated borrowing := borrowing
  fetched _ borrowing present member kind _ _ fetches := by
    obtain ⟨index, rfl⟩ := fetches.field
    unfold Borrowing at borrowing
    rw [present] at borrowing
    have isColumn := congrArg FieldKind.isColumn kind
    cases borrowing with
    | some borrows =>
        exact .some (borrows.fetch _ member isColumn (Field.marks_of_isColumn isColumn))

end Correlation

namespace Statement

theorem rel_borrows_refl (marks : List Mark) (parent : Option (Statement Query)) :
    Option.Rel (Borrows marks) parent parent := by
  cases parent with
  | none => exact .none
  | some statement => exact .some (.refl marks statement)

section Carries

variable {allowed : Field Query → Prop} {statement : Statement Query}
  {invariant : Correlation → Prop}
  (carries : Correlation.Carries allowed statement.primaryLength invariant)
  (allows : ∀ column ∈ statement.columns, allowed column)

include carries allows

/-- Planning keeps what giving places to columns does, once the objects have given theirs. -/
theorem PlanCourse.keeps {parent : Option (Statement Query)} {before : Session}
    (course : PlanCourse statement parent before)
    (begins : invariant
      { indexes := statement.ownIndexes before.registry.columnIndexes, parent }) :
    course.planned.marks = statement.marks ∧ invariant course.finish := by
  have length : primaryLength
      { statement with objects := statement.objects.map (·.withPlan statement.fields) } =
        statement.primaryLength :=
    primaryLength_of_bare (by rw [List.map_map]; rfl)
  have kept := Correlation.indexStatement_carries (length ▸ carries) (by exact allows) begins
    course.indexes
  exact kept

end Carries

/-- Planning keeps the numbers of a statement, and only columns are fetched from around it. -/
theorem PlanCourse.borrows {statement : Statement Query} {parent : Option (Statement Query)}
    {before : Session} (course : PlanCourse statement parent before) :
    course.planned.marks = statement.marks ∧
      Option.Rel (Borrows statement.marks) parent course.finish.parent := by
  have allows : ∀ column ∈ statement.columns, column.mark ∈ statement.marks := by
    intro column member
    obtain ⟨field, given, reads⟩ := exists_everyField member
    rw [marks, Field.allMarks_eq_flatMap]
    exact List.mem_flatMap.2 ⟨field, given, Field.mark_mem_marks field column reads⟩
  exact PlanCourse.keeps
    (Correlation.carries_borrowing statement.marks parent statement.primaryLength) allows course
    (rel_borrows_refl _ parent)

end Statement

end ObjectQuery
