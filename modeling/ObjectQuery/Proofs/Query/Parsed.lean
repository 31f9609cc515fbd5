import ObjectQuery.Proofs.Condition.Filter
import ObjectQuery.Proofs.Query.Column
import ObjectQuery.Proofs.Query.Key
import ObjectQuery.Proofs.Query.Nested

namespace ObjectQuery

/-! Queries as they are parsed, before anything is resolved or numbered. -/

namespace Field

variable {Q : Type}

/-- The columns that the field reads have paths with the property, and it is no field set. -/
def Names (property : Path → Prop) (field : Field Q) : Prop :=
  (∀ column ∈ field.columns, ∀ path, column.kind = .column path → property path) ∧
    ∀ path, field.kind ≠ .fieldSet path

theorem names_column {property : Path → Prop} {path : Path} {field : Field Q}
    (holds : property path) (kind : field.kind = .column path) : field.Names property := by
  refine ⟨?_, fun other impossible => by simp [kind] at impossible⟩
  intro column member other columnKind
  obtain ⟨own, aliasName, notSelected, aggregated, key, columnId, columnIndex⟩ := field
  cases kind
  cases List.mem_singleton.1 member
  cases columnKind
  exact holds

theorem names_call {property : Path → Prop} {name : String} {arguments : List (Field Q)}
    (holds : ∀ argument ∈ arguments, argument.Names property) :
    (ofKind (.call name arguments) : Field Q).Names property := by
  refine ⟨?_, fun other impossible => by cases impossible⟩
  intro column member
  obtain ⟨argument, given, reads⟩ := mem_allColumns.1 member
  exact (holds argument given).1 column reads

theorem names_of_columns_eq_nil {property : Path → Prop} {field : Field Q}
    (reads : field.columns = []) (other : ∀ path, field.kind ≠ .fieldSet path) :
    field.Names property :=
  ⟨by simp [reads], other⟩

theorem allRead_of_names {property : Path → Prop} {fields : List (Field Q)}
    (names : ∀ field ∈ fields, field.Names property) :
    AllRead (fun path _ => property path) (allColumns fields) := by
  intro column member
  obtain ⟨field, given, reads⟩ := mem_allColumns.1 member
  exact (names field given).1 column reads

theorem names_congr {property : Path → Prop} {field other : Field Q}
    (kind : other.kind = field.kind) (names : field.Names property) : other.Names property := by
  obtain ⟨own, aliasName, notSelected, aggregated, key, columnId, columnIndex⟩ := field
  obtain ⟨_, otherName, otherSelected, otherAggregated, otherKey, otherId, otherIndex⟩ := other
  cases kind
  cases own with
  | column path =>
      exact names_column (names.1 _ (List.mem_singleton_self _) path rfl) rfl
  | _ => exact names

/-- The columns that the field reads have no aliases. -/
def Unaliased (field : Field Q) : Prop :=
  ∀ column ∈ field.columns, column.aliasName = none

theorem unaliased_of_isColumn {field : Field Q} (isColumn : field.kind.isColumn = true) :
    field.Unaliased ↔ field.aliasName = none := by
  rw [Unaliased, columns_of_isColumn isColumn, List.forall_mem_singleton]

theorem unaliased_of_columns_eq_nil {field : Field Q} (reads : field.columns = []) :
    field.Unaliased := by
  simp [Unaliased, reads]

/-- No argument of the field reads a column with an alias. -/
def TakesUnaliased (field : Field Q) : Prop :=
  ∀ argument ∈ field.kind.arguments, argument.Unaliased

/-- The columns that a field reads other than as a column are those of its arguments. -/
theorem unaliased_of_arguments {field : Field Q} (other : field.kind.isColumn = false)
    (arguments : field.TakesUnaliased) : field.Unaliased := by
  rw [Unaliased, columns_eq]
  cases kind : field.kind with
  | column path => rw [kind] at other; cases other
  | call name fields =>
      intro column member
      obtain ⟨argument, given, reads⟩ := mem_allColumns.1 member
      exact arguments argument (by rwa [kind]) column reads
  | _ => simp [kindColumns]

theorem Unaliased.arguments {field : Field Q} (unaliased : field.Unaliased) :
    field.TakesUnaliased := by
  intro argument given column reads
  refine unaliased column ?_
  rw [columns_eq]
  cases kind : field.kind with
  | call name fields =>
      rw [kind] at given
      exact mem_allColumns.2 ⟨argument, given, reads⟩
  | _ => rw [kind] at given; cases given

end Field

namespace Statement

variable {Q : Type}

/-- The fields of a statement, in all of its clauses. -/
def everyField (statement : Statement Q) : List (Field Q) :=
  statement.fields ++ statement.filter.filterMap Condition.operand? ++ statement.groupBy ++
    statement.having.filterMap Condition.operand? ++ statement.orderBy.map (·.field)

/-- The property holds of the names that stand for columns in a statement. -/
structure Names (property : Path → Prop) (statement : Statement Q) : Prop where
  fields : ∀ field ∈ statement.fields, field.Names property
  filter : ∀ field ∈ statement.filter.filterMap Condition.operand?, field.Names property
  groupBy : ∀ field ∈ statement.groupBy, field.Names property
  having : ∀ field ∈ statement.having.filterMap Condition.operand?, field.Names property
  orderBy : ∀ order ∈ statement.orderBy, order.field.Names property

/-- The names in a statement are paths whose segments hold no dots. -/
structure Undotted (statement : Statement Q) : Prop where
  objects : ∀ object ∈ statement.objects, object.path.Plain
  names : statement.Names Path.Plain

/-- An object under a name, with an alias that holds no dot. -/
def Declared (object : SourceObject Q) : Prop :=
  object.path ≠ [] ∧ ∀ aliasName, object.aliasName = some aliasName → ObjectQuery.Undotted aliasName

/-- Aliases hold no dots, rows are grouped by columns, and it is known whether there are any. -/
structure GroupsAsWritten (statement : Statement Q) : Prop where
  aliases : ∀ field ∈ statement.fields, ∀ name ∈ field.aliasName, ObjectQuery.Undotted name
  columns : ∀ key ∈ statement.groupBy, key.kind.isColumn = true
  aggregates : statement.isAggregation = !statement.groupBy.isEmpty

/-- Only the fields that are selected have aliases. -/
structure AliasesSelected (statement : Statement Q) : Prop where
  fields : ∀ field ∈ statement.fields, field.TakesUnaliased
  filter : ∀ field ∈ statement.filter.filterMap Condition.operand?, field.Unaliased
  groupBy : ∀ field ∈ statement.groupBy, field.Unaliased
  having : ∀ field ∈ statement.having.filterMap Condition.operand?, field.Unaliased
  orderBy : ∀ order ∈ statement.orderBy, order.field.Unaliased

/-- No constant is the left side of a comparison in the filter. -/
def ComparesFields (statement : Statement Q) : Prop :=
  Condition.IsFilterOver (fun field => ¬field.IsConstant) (fun _ => True) statement.filter

/-- A statement as it is parsed. -/
structure Parsed (statement : Statement Q) : Prop where
  unnumbered : statement.id = 0
  objects : statement.objects ≠ []
  declared : ∀ object ∈ statement.objects, Declared object
  filter : Condition.IsFilter statement.filter
  having : Condition.IsFilter statement.having
  names : statement.Names (· ≠ [])
  fresh : ∀ field ∈ statement.everyField, field.Unnumbered
  groups : statement.GroupsAsWritten

end Statement

namespace Query

/-- A query as it is parsed, like the queries nested in it. -/
abbrev Parsed : Query → Prop :=
  Throughout Statement.Parsed

end Query

end ObjectQuery
