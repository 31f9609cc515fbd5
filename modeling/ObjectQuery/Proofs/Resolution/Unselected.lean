import ObjectQuery.Proofs.Resolution.Statement

namespace ObjectQuery

/-!
Columns that are read but not selected. Those that are appended have keys of
their own, and with them each column that a clause reads has a column among the
fields, so that nothing is left to append.
-/

namespace Field

variable {Q : Type}

/-- A field is a column, or a call that reads the column in its arguments. -/
inductive ReadsColumn (column : Field Q) : Field Q → Prop
  | itself (isColumn : column.kind.isColumn = true) : ReadsColumn column column
  | argument {call argument : Field Q} (member : argument ∈ call.kind.arguments)
      (reads : ReadsColumn column argument) : ReadsColumn column call

mutual

theorem readsColumn_of_mem_columns {column : Field Q} : (field : Field Q) →
    column ∈ field.columns → ReadsColumn column field
  | ⟨kind, _, _, _, _, _, _⟩, member => readsColumn_of_mem_kindColumns kind _ rfl member

theorem readsColumn_of_mem_kindColumns {column : Field Q} : (kind : FieldKind Q) →
    (field : Field Q) → field.kind = kind → column ∈ kindColumns kind field →
    ReadsColumn column field
  | .column path, field, same, member => by
      obtain rfl := List.mem_singleton.1 member
      exact .itself (by simp [same, FieldKind.isColumn])
  | .call name arguments, field, same, member => by
      obtain ⟨argument, given, reads⟩ := exists_readsColumn_of_mem_allColumns arguments member
      exact .argument (by simpa [same, FieldKind.arguments] using given) reads
  | .fieldSet _, _, _, member | .subquery _, _, _, member | .literal _, _, _, member
  | .parameter _, _, _, member | .relativeDate _, _, _, member => by cases member

theorem exists_readsColumn_of_mem_allColumns {column : Field Q} : (fields : List (Field Q)) →
    column ∈ allColumns fields → ∃ field ∈ fields, ReadsColumn column field
  | [], member => by cases member
  | field :: rest, member => by
      rcases List.mem_append.1 member with own | later
      · exact ⟨field, List.mem_cons_self, readsColumn_of_mem_columns field own⟩
      · obtain ⟨other, given, reads⟩ := exists_readsColumn_of_mem_allColumns rest later
        exact ⟨other, List.mem_cons_of_mem _ given, reads⟩

end

theorem ReadsColumn.mem_columns {column field : Field Q} (reads : ReadsColumn column field) :
    column ∈ field.columns := by
  induction reads with
  | itself isColumn => simp [columns_of_isColumn isColumn]
  | @argument call argument member _ induction =>
      rw [columns_eq]
      cases kind : call.kind with
      | call name arguments =>
          rw [kind, FieldKind.arguments] at member
          exact mem_allColumns.2 ⟨argument, member, induction⟩
      | _ => simp [kind, FieldKind.arguments] at member

theorem mem_allColumns_iff_reads {column : Field Q} {fields : List (Field Q)} :
    column ∈ allColumns fields ↔ ∃ field ∈ fields, ReadsColumn column field :=
  ⟨exists_readsColumn_of_mem_allColumns fields,
    fun ⟨field, member, reads⟩ => mem_allColumns.2 ⟨field, member, reads.mem_columns⟩⟩

/-- The keys of the columns among the fields. -/
def columnKeys (fields : List (Field Q)) : List String :=
  (fields.filter (·.kind.isColumn)).map (·.key)

theorem mem_columnKeys {fields : List (Field Q)} {key : String} :
    key ∈ columnKeys fields ↔ ∃ field ∈ fields, field.kind.isColumn = true ∧ field.key = key := by
  simp [columnKeys, and_assoc]

/-- The first fields with keys that were not seen have such keys, each once. -/
theorem keys_firstsOf (seen : SortedSet String) (fields : List (Field Q)) :
    ((firstsOf seen fields).map (·.key)).Nodup ∧
      ∀ field ∈ firstsOf seen fields, SortedMap.contains seen field.key = false := by
  induction fields generalizing seen with
  | nil => simp [firstsOf]
  | cons first rest induction =>
      unfold firstsOf
      split
      · exact induction seen
      · rename_i unseen
        obtain ⟨distinct, unseenLater⟩ := induction (SortedSet.add seen first.key)
        have later : ∀ field ∈ firstsOf (SortedSet.add seen first.key) rest,
            first.key ≠ field.key ∧ SortedMap.contains seen field.key = false := by
          intro field member
          have apart := unseenLater field member
          rwa [← Bool.not_eq_true, SortedSet.contains_add, not_or, Bool.not_eq_true] at apart
        refine ⟨?_, ?_⟩
        · rw [List.map_cons, List.nodup_cons, List.mem_map]
          refine ⟨?_, distinct⟩
          rintro ⟨field, member, same⟩
          exact (later field member).1 same.symm
        · rw [List.forall_mem_cons]
          exact ⟨Bool.not_eq_true _ ▸ unseen, fun field member => (later field member).2⟩

/-- Nothing is new where all keys were seen. -/
theorem firstsOf_eq_nil {seen : SortedSet String} {fields : List (Field Q)}
    (known : ∀ field ∈ fields, SortedMap.contains seen field.key = true) :
    firstsOf seen fields = [] := by
  induction fields with
  | nil => rfl
  | cons first rest induction =>
      obtain ⟨firstKnown, restKnown⟩ := List.forall_mem_cons.1 known
      rw [firstsOf, if_pos firstKnown, induction restKnown]

end Field

namespace Statement

open ObjectQuery.Field (ReadsColumn columnKeys mem_columnKeys)

variable {Q : Type}

/-- A clause reads the column, other than by selecting it. -/
inductive Needs (statement : Statement Q) (column : Field Q) : Prop
  | argument {call argument : Field Q} (selected : call ∈ statement.fields)
      (member : argument ∈ call.kind.arguments) (reads : ReadsColumn column argument)
  | filter {operand : Field Q} (member : .operand operand ∈ statement.filter)
      (reads : ReadsColumn column operand)
  | groupBy {field : Field Q} (member : field ∈ statement.groupBy)
      (reads : ReadsColumn column field)
  | having {operand : Field Q} (member : .operand operand ∈ statement.having)
      (reads : ReadsColumn column operand)
  | orderBy {order : OrderKey Q} (member : order ∈ statement.orderBy)
      (isColumn : order.field.kind.isColumn = true) (same : order.field = column)

theorem mem_operands {conditions : List (Condition (Field Q))} {operand : Field Q} :
    operand ∈ conditions.filterMap Condition.operand? ↔ .operand operand ∈ conditions := by
  rw [List.mem_filterMap]
  constructor
  · rintro ⟨condition, member, found⟩
    cases condition <;> cases found
    exact member
  · exact fun member => ⟨_, member, rfl⟩

/-- The columns that are read are those that are selected, and those that other clauses need. -/
theorem mem_columns_iff_needs {statement : Statement Q} {column : Field Q} :
    column ∈ statement.columns ↔
      (column ∈ statement.fields ∧ column.kind.isColumn = true) ∨ statement.Needs column := by
  simp only [mem_columns_iff, Field.mem_allColumns_iff_reads, mem_operands]
  constructor
  · rintro (⟨field, member, reads⟩ | ⟨operand, member, reads⟩ | ⟨field, member, reads⟩ |
      ⟨operand, member, reads⟩ | sorted)
    · cases reads with
      | itself isColumn => exact .inl ⟨member, isColumn⟩
      | argument given reads => exact .inr (.argument member given reads)
    · exact .inr (.filter member reads)
    · exact .inr (.groupBy member reads)
    · exact .inr (.having member reads)
    · obtain ⟨given, isColumn⟩ := List.mem_filter.1 sorted
      obtain ⟨order, member, rfl⟩ := List.mem_map.1 given
      exact .inr (.orderBy member isColumn rfl)
  · rintro (⟨member, isColumn⟩ | needs)
    · exact .inl ⟨column, member, .itself isColumn⟩
    · cases needs with
      | argument selected member reads => exact .inl ⟨_, selected, .argument member reads⟩
      | filter member reads => exact .inr (.inl ⟨_, member, reads⟩)
      | groupBy member reads => exact .inr (.inr (.inl ⟨_, member, reads⟩))
      | having member reads => exact .inr (.inr (.inr (.inl ⟨_, member, reads⟩)))
      | orderBy member isColumn same =>
          refine .inr (.inr (.inr (.inr (List.mem_filter.2 ⟨?_, same ▸ isColumn⟩))))
          exact List.mem_map.2 ⟨_, member, same⟩

theorem not_mem_columnKeys {statement : Statement Q} {column : Field Q}
    (member : column ∈ statement.unselected) : column.key ∉ columnKeys statement.fields := by
  have unseen := (Field.keys_firstsOf _ _).2 column member
  rwa [← Bool.not_eq_true, SortedSet.contains_ofList] at unseen

theorem needs_of_mem_unselected {statement : Statement Q} {column : Field Q}
    (member : column ∈ statement.unselected) : statement.Needs column := by
  rcases mem_columns_iff_needs.1 (Field.mem_of_mem_firstsOf member) with ⟨own, isColumn⟩ | needs
  · exact absurd (mem_columnKeys.2 ⟨column, own, isColumn, rfl⟩) (not_mem_columnKeys member)
  · exact needs

theorem mem_columnKeys_selectRead {statement : Statement Q} {key : String} :
    key ∈ columnKeys statement.selectRead.fields ↔
      key ∈ columnKeys statement.fields ∨ ∃ column, statement.Needs column ∧ column.key = key := by
  constructor
  · intro member
    obtain ⟨field, given, isColumn, same⟩ := mem_columnKeys.1 member
    rw [fields_selectRead] at given
    rcases List.mem_append.1 given with own | added
    · exact .inl (mem_columnKeys.2 ⟨field, own, isColumn, same⟩)
    · obtain ⟨column, read, rfl⟩ := List.mem_map.1 added
      exact .inr ⟨column, needs_of_mem_unselected read, same⟩
  · rintro (own | ⟨column, needs, rfl⟩)
    · obtain ⟨field, member, isColumn, same⟩ := mem_columnKeys.1 own
      rw [fields_selectRead]
      exact mem_columnKeys.2 ⟨field, List.mem_append_left _ member, isColumn, same⟩
    · exact mem_columnKeys.2 (exists_selected_key (mem_columns_iff_needs.2 (.inr needs)))

/-- With the columns that are read, a statement selects all that it reads. -/
theorem unselected_selectRead (statement : Statement Q) : statement.selectRead.unselected = [] := by
  refine Field.firstsOf_eq_nil fun column member => (SortedSet.contains_ofList _ _).2 ?_
  rcases mem_columns_selectRead member with own | ⟨first, given, rfl⟩
  · exact mem_columnKeys.2 (exists_selected_key own)
  · have read : first ∈ statement.columns := Field.mem_of_mem_firstsOf given
    obtain ⟨field, selected, isColumn, same⟩ := exists_selected_key read
    exact mem_columnKeys.2 ⟨field, selected, isColumn, same⟩

/--
The fields stay as they are, before copies of the columns that are needed, each
key once and none that a column had. All that is needed is then selected, and
nothing is appended a second time.
-/
theorem selectRead_eq_append (statement : Statement Q) :
    ∃ added : List (Field Q),
      statement.selectRead = { statement with fields := statement.fields ++ added } ∧
        (∀ field ∈ added, field.kind.isColumn = true ∧ field.notSelected = true ∧
          ∃ column, statement.Needs column ∧ field = { column with notSelected := true }) ∧
        (added.map (·.key)).Nodup ∧
        (∀ field ∈ added, field.key ∉ columnKeys statement.fields) ∧
        (∀ key, key ∈ columnKeys statement.selectRead.fields ↔
          key ∈ columnKeys statement.fields ∨
            ∃ column, statement.Needs column ∧ column.key = key) ∧
        statement.selectRead.selectRead = statement.selectRead := by
  refine ⟨statement.unselected.map fun field => { field with notSelected := true }, rfl, ?_, ?_, ?_,
    fun _ => mem_columnKeys_selectRead, ?_⟩
  · intro field member
    obtain ⟨column, read, rfl⟩ := List.mem_map.1 member
    have isColumn : column.kind.isColumn = true := isColumn_of_mem_unselected read
    exact ⟨isColumn, rfl, column, needs_of_mem_unselected read, rfl⟩
  · rw [List.map_map]
    exact (Field.keys_firstsOf _ _).1
  · intro field member
    obtain ⟨column, read, rfl⟩ := List.mem_map.1 member
    have apart : column.key ∉ columnKeys statement.fields := not_mem_columnKeys read
    exact apart
  · have fields : statement.selectRead.selectRead.fields = statement.selectRead.fields := by
      rw [fields_selectRead statement.selectRead, unselected_selectRead, List.map_nil,
        List.append_nil]
    calc statement.selectRead.selectRead
        = { statement.selectRead with fields := statement.selectRead.selectRead.fields } := rfl
      _ = statement.selectRead := by rw [fields]

end Statement

end ObjectQuery
