import ObjectQuery.Compiler.Statement

namespace ObjectQuery

/-! The columns that fields and statements read. -/

namespace Field

variable {Q : Type}

theorem columns_eq (field : Field Q) : field.columns = kindColumns field.kind field := by
  cases field
  rw [columns]

theorem allColumns_eq_flatMap (fields : List (Field Q)) :
    allColumns fields = fields.flatMap columns := by
  induction fields with
  | nil => rfl
  | cons field rest induction => rw [allColumns, induction, List.flatMap_cons]

theorem mem_allColumns {column : Field Q} {fields : List (Field Q)} :
    column ∈ allColumns fields ↔ ∃ field ∈ fields, column ∈ field.columns := by
  rw [allColumns_eq_flatMap, List.mem_flatMap]

mutual

theorem isColumn_of_mem_columns : (field : Field Q) → ∀ column ∈ field.columns,
    column.kind.isColumn = true
  | ⟨kind, _, _, _, _, _, _⟩ => isColumn_of_mem_kindColumns kind _ rfl

theorem isColumn_of_mem_kindColumns : (kind : FieldKind Q) → (field : Field Q) →
    field.kind = kind → ∀ column ∈ kindColumns kind field, column.kind.isColumn = true
  | .column path, field, same => by
      simp [kindColumns, same, FieldKind.isColumn]
  | .call _ arguments, _, _ => isColumn_of_mem_allColumns arguments
  | .fieldSet _, _, _ | .subquery _, _, _ | .literal _, _, _ | .parameter _, _, _
  | .relativeDate _, _, _ => by simp [kindColumns]

theorem isColumn_of_mem_allColumns : (fields : List (Field Q)) →
    ∀ column ∈ allColumns fields, column.kind.isColumn = true
  | [] => by simp [allColumns]
  | field :: rest => by
      simp only [allColumns, List.forall_mem_append]
      exact ⟨isColumn_of_mem_columns field, isColumn_of_mem_allColumns rest⟩

end

theorem exists_eq_column {kind : FieldKind Q} (column : kind.isColumn = true) :
    ∃ path, kind = .column path := by
  cases kind <;> first | exact ⟨_, rfl⟩ | cases column

theorem columns_of_isColumn {field : Field Q} (column : field.kind.isColumn = true) :
    field.columns = [field] := by
  obtain ⟨path, kind⟩ := exists_eq_column column
  rw [columns_eq, kind]
  rfl

theorem query?_of_isColumn {kind : FieldKind Q} (column : kind.isColumn = true) :
    kind.query? = none := by
  cases kind <;> first | rfl | cases column

/-- The field stands for a value that is known without a row. -/
def IsConstant (field : Field Q) : Prop :=
  (∃ value, field.kind = .literal value) ∨ (∃ name, field.kind = .parameter name) ∨
    ∃ date, field.kind = .relativeDate date

theorem not_isConstant_of_isColumn {field : Field Q} (column : field.kind.isColumn = true) :
    ¬field.IsConstant := by
  obtain ⟨path, kind⟩ := exists_eq_column column
  simp [IsConstant, kind]

theorem not_isConstant_of_isCall {field : Field Q} (call : field.kind.isCall = true) :
    ¬field.IsConstant := by
  rintro (⟨value, kind⟩ | ⟨name, kind⟩ | ⟨date, kind⟩) <;> rw [kind] at call <;> cases call

/-- The paths of the columns are related to their keys. -/
def AllRead (reads : Path → String → Prop) (columns : List (Field Q)) : Prop :=
  ∀ column ∈ columns, ∀ path, column.kind = .column path → reads path column.key

theorem allRead_append {reads : Path → String → Prop} {left right : List (Field Q)} :
    AllRead reads (left ++ right) ↔ AllRead reads left ∧ AllRead reads right :=
  List.forall_mem_append

theorem mem_of_mem_firstsOf {seen : SortedSet String} {fields : List (Field Q)} {field : Field Q}
    (member : field ∈ firstsOf seen fields) : field ∈ fields := by
  induction fields generalizing seen with
  | nil => exact member
  | cons first rest induction =>
      unfold firstsOf at member
      split at member
      · exact List.mem_cons_of_mem _ (induction member)
      · exact (List.mem_cons.1 member).elim (fun same => same ▸ List.mem_cons_self)
          fun later => List.mem_cons_of_mem _ (induction later)

end Field

namespace Statement

variable {Q : Type}

/-- A clause of the statement reads the column with the path and the key. -/
def Reads (statement : Statement Q) (path : Path) (key : String) : Prop :=
  ∃ column ∈ statement.columns, column.kind = .column path ∧ column.key = key

theorem allRead_columns (statement : Statement Q) :
    Field.AllRead statement.Reads statement.columns :=
  fun column member _ kind => ⟨column, member, kind, rfl⟩

theorem mem_columns_iff {statement : Statement Q} {column : Field Q} :
    column ∈ statement.columns ↔
      column ∈ Field.allColumns statement.fields ∨
        column ∈ Field.allColumns (statement.filter.filterMap Condition.operand?) ∨
        column ∈ Field.allColumns statement.groupBy ∨
        column ∈ Field.allColumns (statement.having.filterMap Condition.operand?) ∨
        column ∈ (statement.orderBy.map (·.field)).filter (·.kind.isColumn) := by
  simp only [columns, List.mem_append, or_assoc]

theorem mem_columns_append {statement : Statement Q} {added : List (Field Q)}
    {objects : List (SourceObject Q)} {column : Field Q}
    (member : column ∈ columns { statement with objects, fields := statement.fields ++ added }) :
    column ∈ statement.columns ∨ column ∈ Field.allColumns added := by
  rcases mem_columns_iff.1 member with selected | other
  · rw [Field.allColumns_eq_flatMap, List.flatMap_append, List.mem_append,
      ← Field.allColumns_eq_flatMap, ← Field.allColumns_eq_flatMap] at selected
    exact selected.imp_left fun own => mem_columns_iff.2 (.inl own)
  · exact .inl (mem_columns_iff.2 (.inr other))

theorem isColumn_of_mem_columns {statement : Statement Q} {column : Field Q}
    (member : column ∈ statement.columns) : column.kind.isColumn = true := by
  rcases mem_columns_iff.1 member with fields | filter | groupBy | having | orderBy
  · exact Field.isColumn_of_mem_allColumns _ _ fields
  · exact Field.isColumn_of_mem_allColumns _ _ filter
  · exact Field.isColumn_of_mem_allColumns _ _ groupBy
  · exact Field.isColumn_of_mem_allColumns _ _ having
  · exact (List.mem_filter.1 orderBy).2

/-- A column that a statement reads is read by a field, or by another clause. -/
theorem columns_cases {statement : Statement Q} {column : Field Q}
    (member : column ∈ statement.columns) :
    column ∈ Field.allColumns statement.fields ∨
      column ∈ Field.allColumns (statement.filter.filterMap Condition.operand?) ∨
      column ∈ Field.allColumns statement.groupBy ∨
      column ∈ Field.allColumns (statement.having.filterMap Condition.operand?) ∨
      column ∈ statement.orderBy.map (·.field) := by
  rw [mem_columns_iff, List.mem_filter] at member
  exact member.imp_right (Or.imp_right (Or.imp_right (Or.imp_right And.left)))

end Statement

/-! What numbering shows of fields: marks of them and of the arguments of calls. -/

/-- Whether a field is a column, its key and its number. -/
structure Mark where
  isColumn : Bool
  key : String
  id : Option Nat

namespace Mark

/-- Only columns may share a number. -/
def Apart (left right : Mark) : Prop :=
  ∀ id, left.id = some id → right.id = some id → left.isColumn = true ∧ right.isColumn = true

theorem Apart.symm {left right : Mark} (apart : left.Apart right) : right.Apart left :=
  fun id own other => (apart id other own).symm

/-- The columns among the marks have numbers. -/
def Complete (marks : List Mark) : Prop :=
  ∀ mark ∈ marks, mark.isColumn = true → ∃ id, mark.id = some id

end Mark

namespace Field

def mark (field : Field Q) : Mark :=
  ⟨field.kind.isColumn, field.key, field.columnId⟩

end Field

mutual

/-- The mark of a field, and those of its arguments where it is a call. -/
def Field.marks : Field Q → List Mark
  | ⟨kind, _, _, _, key, columnId, _⟩ => ⟨kind.isColumn, key, columnId⟩ :: kind.marks

def FieldKind.marks : FieldKind Q → List Mark
  | .call _ arguments => Field.allMarks arguments
  | _ => []

def Field.allMarks : List (Field Q) → List Mark
  | [] => []
  | field :: rest => field.marks ++ Field.allMarks rest

end

namespace Field

variable {Q : Type}

theorem marks_eq (field : Field Q) : field.marks = field.mark :: field.kind.marks := by
  cases field
  rw [marks]
  rfl

theorem mark_mem (field : Field Q) : field.mark ∈ field.marks := by
  rw [marks_eq]
  exact List.mem_cons_self

theorem allMarks_eq_flatMap (fields : List (Field Q)) : allMarks fields = fields.flatMap marks := by
  induction fields with
  | nil => rfl
  | cons field rest induction => rw [allMarks, induction, List.flatMap_cons]

@[simp]
theorem allMarks_append (left right : List (Field Q)) :
    allMarks (left ++ right) = allMarks left ++ allMarks right := by
  simp only [allMarks_eq_flatMap, List.flatMap_append]

/-- Neither the field nor anything in it has a number. -/
def Unnumbered (field : Field Q) : Prop :=
  ∀ mark ∈ field.marks, mark.id = none

theorem unnumbered_ofKind {kind : FieldKind Q} (inner : ∀ mark ∈ kind.marks, mark.id = none) :
    (ofKind kind).Unnumbered := by
  rw [Unnumbered, marks_eq, List.forall_mem_cons]
  exact ⟨rfl, inner⟩

theorem unnumbered_call {arguments : List (Field Q)}
    (inner : ∀ argument ∈ arguments, argument.Unnumbered) {name : String} :
    ∀ mark ∈ (FieldKind.call name arguments).marks, mark.id = none := by
  rw [FieldKind.marks, allMarks_eq_flatMap]
  intro mark member
  obtain ⟨argument, given, own⟩ := List.mem_flatMap.1 member
  exact inner argument given mark own

theorem unnumbered_congr {field other : Field Q} (kind : other.kind = field.kind)
    (id : other.columnId = field.columnId) (unnumbered : field.Unnumbered) :
    other.Unnumbered := by
  rw [Unnumbered, marks_eq, List.forall_mem_cons] at unnumbered ⊢
  exact ⟨id.trans unnumbered.1, kind ▸ unnumbered.2⟩

theorem marks_of_isColumn {field : Field Q} (column : field.kind.isColumn = true) :
    field.marks = [field.mark] := by
  obtain ⟨path, kind⟩ := exists_eq_column column
  simp [marks_eq, kind, FieldKind.marks]

mutual

theorem mark_mem_marks : (field : Field Q) → ∀ column ∈ field.columns, column.mark ∈ field.marks
  | ⟨kind, aliasName, notSelected, aggregated, key, columnId, columnIndex⟩, column, member =>
      mark_mem_of_mem_kindColumns kind _ rfl column member

theorem mark_mem_of_mem_kindColumns : (kind : FieldKind Q) → (field : Field Q) →
    field.kind = kind → ∀ column ∈ kindColumns kind field, column.mark ∈ field.marks
  | .column _, field, _, column, member => by
      rw [List.mem_singleton.1 member]
      exact mark_mem field
  | .call _ arguments, field, same, column, member => by
      rw [marks_eq, same, FieldKind.marks]
      exact List.mem_cons_of_mem _ (mark_mem_allMarks arguments column member)
  | .fieldSet _, _, _, _, member | .subquery _, _, _, _, member | .literal _, _, _, _, member
  | .parameter _, _, _, _, member | .relativeDate _, _, _, _, member => by
      simp [kindColumns] at member

theorem mark_mem_allMarks : (fields : List (Field Q)) → ∀ column ∈ allColumns fields,
    column.mark ∈ allMarks fields
  | [], _, member => by simp [allColumns] at member
  | field :: rest, column, member => by
      rw [allMarks, List.mem_append]
      exact (List.mem_append.1 member).imp (mark_mem_marks field column)
        (mark_mem_allMarks rest column)

end

end Field

mutual

theorem Field.marks_map (f : P → Q) : (field : Field P) → (field.map f).marks = field.marks
  | ⟨kind, _, _, _, key, columnId, _⟩ => by
      have column : (kind.map f).isColumn = kind.isColumn := by cases kind <;> rfl
      rw [Field.map, Field.marks, Field.marks, FieldKind.marks_map f kind, column]

theorem FieldKind.marks_map (f : P → Q) : (kind : FieldKind P) → (kind.map f).marks = kind.marks
  | .call _ arguments => by
      rw [FieldKind.map, FieldKind.marks, FieldKind.marks, Field.allMarks_mapAll f arguments]
  | .column _ | .fieldSet _ | .subquery _ | .literal _ | .parameter _ | .relativeDate _ => rfl

theorem Field.allMarks_mapAll (f : P → Q) : (fields : List (Field P)) →
    Field.allMarks (Field.mapAll f fields) = Field.allMarks fields
  | [] => rfl
  | field :: rest => by
      rw [Field.mapAll, Field.allMarks, Field.allMarks, Field.marks_map f field,
        Field.allMarks_mapAll f rest]

end

end ObjectQuery
