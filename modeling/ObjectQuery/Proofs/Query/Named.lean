import ObjectQuery.Proofs.Query.Alike
import ObjectQuery.Proofs.Query.Parsed

namespace ObjectQuery

/-! The columns and field sets of statements, wherever these stand. -/

mutual

/-- The columns and field sets in a field: itself, or those in the arguments of a call. -/
def Field.named : Field Q → List (Field Q)
  | ⟨kind, aliasName, notSelected, aggregated, key, columnId, columnIndex⟩ =>
      Field.kindNamed kind ⟨kind, aliasName, notSelected, aggregated, key, columnId, columnIndex⟩

def Field.kindNamed : FieldKind Q → Field Q → List (Field Q)
  | .column _, field | .fieldSet _, field => [field]
  | .call _ arguments, _ => Field.allNamed arguments
  | _, _ => []

def Field.allNamed : List (Field Q) → List (Field Q)
  | [] => []
  | field :: rest => field.named ++ Field.allNamed rest

end

namespace Field

variable {Q : Type} {reads : Path → String → Prop}

theorem named_eq (field : Field Q) : field.named = kindNamed field.kind field := by
  cases field
  rw [named]

theorem allNamed_eq_flatMap (fields : List (Field Q)) :
    allNamed fields = fields.flatMap named := by
  induction fields with
  | nil => rfl
  | cons field rest induction => rw [allNamed, induction, List.flatMap_cons]

@[simp]
theorem allNamed_append (left right : List (Field Q)) :
    allNamed (left ++ right) = allNamed left ++ allNamed right := by
  simp only [allNamed_eq_flatMap, List.flatMap_append]

theorem mem_allNamed {named : Field Q} {fields : List (Field Q)} :
    named ∈ allNamed fields ↔ ∃ field ∈ fields, named ∈ field.named := by
  rw [allNamed_eq_flatMap, List.mem_flatMap]

theorem named_of_path? {field : Field Q} {path : Path} (named : field.kind.path? = some path) :
    field.named = [field] := by
  rw [named_eq]
  cases kind : field.kind <;> rw [kind] at named <;> first | rfl | cases named

mutual

theorem columns_subset_named : (field : Field Q) → field.columns ⊆ field.named
  | ⟨kind, aliasName, notSelected, aggregated, key, columnId, columnIndex⟩ =>
      kindColumns_subset kind ⟨kind, aliasName, notSelected, aggregated, key, columnId, columnIndex⟩

theorem kindColumns_subset : (kind : FieldKind Q) → (field : Field Q) →
    kindColumns kind field ⊆ kindNamed kind field
  | .call _ arguments, _ => allColumns_subset arguments
  | .column _, _ => fun _ member => member
  | .fieldSet _, _ | .subquery _, _ | .literal _, _ | .parameter _, _ | .relativeDate _, _ =>
      List.nil_subset _

theorem allColumns_subset : (fields : List (Field Q)) → allColumns fields ⊆ allNamed fields
  | [] => fun _ member => member
  | field :: rest => by
      rw [allColumns, allNamed]
      exact List.append_subset.2
        ⟨List.Subset.trans (columns_subset_named field) (List.subset_append_left ..),
          List.Subset.trans (allColumns_subset rest) (List.subset_append_right ..)⟩

end

mutual

theorem map_mark_named_subset : (field : Field Q) → field.named.map mark ⊆ field.marks
  | ⟨kind, aliasName, notSelected, aggregated, key, columnId, columnIndex⟩ => by
      rw [named, marks]
      exact map_mark_kindNamed_subset kind
        ⟨kind, aliasName, notSelected, aggregated, key, columnId, columnIndex⟩

theorem map_mark_kindNamed_subset : (kind : FieldKind Q) → (field : Field Q) →
    (kindNamed kind field).map mark ⊆ field.mark :: kind.marks
  | .call _ arguments, field =>
      List.subset_cons_of_subset field.mark (map_mark_allNamed_subset arguments)
  | .column _, _ | .fieldSet _, _ => List.cons_subset_cons _ (List.nil_subset _)
  | .subquery _, _ | .literal _, _ | .parameter _, _ | .relativeDate _, _ => List.nil_subset _

theorem map_mark_allNamed_subset : (fields : List (Field Q)) →
    (allNamed fields).map mark ⊆ allMarks fields
  | [] => fun _ member => member
  | field :: rest => by
      rw [allNamed, allMarks, List.map_append]
      exact List.append_subset.2
        ⟨List.Subset.trans (map_mark_named_subset field) (List.subset_append_left ..),
          List.Subset.trans (map_mark_allNamed_subset rest) (List.subset_append_right ..)⟩

end

mutual

theorem named_bare : (field : Field Q) → field.bare.named = field.named.map bare
  | ⟨kind, aliasName, notSelected, aggregated, key, columnId, columnIndex⟩ => by
      have same := kindNamed_bare kind
        ⟨kind, aliasName, notSelected, aggregated, key, columnId, columnIndex⟩
      simpa only [bare, named] using same

theorem kindNamed_bare : (kind : FieldKind Q) → (field : Field Q) →
    kindNamed kind.bare field.bare = (kindNamed kind field).map bare
  | .call _ arguments, _ => allNamed_bare arguments
  | .column _, _ | .fieldSet _, _ | .subquery _, _ | .literal _, _ | .parameter _, _
  | .relativeDate _, _ => rfl

theorem allNamed_bare : (fields : List (Field Q)) →
    allNamed (allBare fields) = (allNamed fields).map bare
  | [] => rfl
  | field :: rest => by
      simp only [allBare, allNamed, List.map_append, named_bare field, allNamed_bare rest]

end

theorem allNamed_map_bare (fields : List (Field Q)) :
    (allNamed fields).map bare = allNamed (fields.map bare) := by
  rw [← allNamed_bare, allBare_eq_map]

/-- The paths of columns and field sets are related to their keys. -/
def AllNamed (reads : Path → String → Prop) (fields : List (Field Q)) : Prop :=
  ∀ field ∈ fields, ∀ path, field.kind.path? = some path → reads path field.key

theorem AllNamed.columns {fields columns : List (Field Q)} (named : AllNamed reads fields)
    (among : columns ⊆ fields) : AllRead reads columns :=
  fun column member path kind => named column (among member) path (congrArg FieldKind.path? kind)

theorem AllNamed.mono {weaker : Path → String → Prop} {fields : List (Field Q)}
    (named : AllNamed reads fields) (weaken : ∀ path key, reads path key → weaker path key) :
    AllNamed weaker fields :=
  fun field member path kind => weaken path field.key (named field member path kind)

theorem AllNamed.of_bare {before after : List (Field Q)}
    (same : after.map bare = before.map bare) (named : AllNamed reads before) :
    AllNamed reads after := by
  intro field member path kind
  obtain ⟨other, earlier, alike⟩ := exists_mem_of_map_eq same member
  have key : other.key = field.key := by simpa using congrArg Field.key alike
  rw [← key]
  refine named other earlier path ?_
  simpa [kind] using congrArg (·.kind.path?) alike

end Field

namespace Statement

variable {Q : Type} {statement : Statement Q}

/-- The columns and field sets in the clauses of a statement. -/
def named (statement : Statement Q) : List (Field Q) :=
  Field.allNamed statement.everyField

theorem mem_everyField_iff {field : Field Q} :
    field ∈ statement.everyField ↔
      field ∈ statement.fields ∨ field ∈ statement.filter.filterMap Condition.operand? ∨
        field ∈ statement.groupBy ∨ field ∈ statement.having.filterMap Condition.operand? ∨
        field ∈ statement.orderBy.map (·.field) := by
  simp only [everyField, List.mem_append, or_assoc]

/-- Each column that a statement reads is read by a field in one of its clauses. -/
theorem exists_everyField {column : Field Q} (member : column ∈ statement.columns) :
    ∃ field ∈ statement.everyField, column ∈ field.columns := by
  rcases columns_cases member with reads | reads | reads | reads | reads
  iterate 4
    obtain ⟨field, given, own⟩ := Field.mem_allColumns.1 reads
    exact ⟨field, mem_everyField_iff.2 (by simp [given]), own⟩
  · refine ⟨column, mem_everyField_iff.2 (by simp only [reads, or_true]), ?_⟩
    rw [Field.columns_of_isColumn (isColumn_of_mem_columns member)]
    exact List.mem_singleton_self column

theorem columns_subset_named (statement : Statement Q) : statement.columns ⊆ statement.named := by
  intro column member
  obtain ⟨field, given, reads⟩ := exists_everyField member
  exact Field.mem_allNamed.2 ⟨field, given, Field.columns_subset_named field reads⟩

theorem mem_named_of_fields {field : Field Q} {path : Path} (member : field ∈ statement.fields)
    (named : field.kind.path? = some path) : field ∈ statement.named := by
  refine Field.mem_allNamed.2 ⟨field, mem_everyField_iff.2 (.inl member), ?_⟩
  rw [Field.named_of_path? named]
  exact List.mem_singleton_self _

theorem mem_named_append {added : List (Field Q)} {objects : List (SourceObject Q)}
    {field : Field Q}
    (member : field ∈ named { statement with objects, fields := statement.fields ++ added }) :
    field ∈ statement.named ∨ field ∈ Field.allNamed added := by
  obtain ⟨own, given, holds⟩ := Field.mem_allNamed.1 member
  have clause : own ∈ statement.everyField ∨ own ∈ added := by
    rcases mem_everyField_iff.1 given with selected | other
    · exact (List.mem_append.1 selected).imp_left fun earlier => mem_everyField_iff.2 (.inl earlier)
    · exact .inl (mem_everyField_iff.2 (.inr other))
  exact clause.imp (fun given => Field.mem_allNamed.2 ⟨own, given, holds⟩)
    fun given => Field.mem_allNamed.2 ⟨own, given, holds⟩

theorem mark_mem_marks_of_named {field : Field Q} (member : field ∈ statement.named) :
    field.mark ∈ Field.allMarks statement.everyField :=
  Field.map_mark_allNamed_subset statement.everyField (List.mem_map_of_mem member)

theorem Alike.everyField {before after : Statement Q} (alike : before.Alike after) :
    after.everyField.map Field.bare = before.everyField.map Field.bare := by
  have orders : (after.orderBy.map (·.field)).map Field.bare =
      (before.orderBy.map (·.field)).map Field.bare := by
    simpa [Function.comp_def] using alike.orderBy
  simp only [Statement.everyField, List.map_append, alike.fields, alike.groupBy, orders,
    Condition.map_operands alike.filter, Condition.map_operands alike.having]

theorem Alike.named {before after : Statement Q} (alike : before.Alike after) :
    after.named.map Field.bare = before.named.map Field.bare := by
  rw [Statement.named, Statement.named, Field.allNamed_map_bare, Field.allNamed_map_bare,
    alike.everyField]

end Statement

end ObjectQuery
