import ObjectQuery.Proofs.Resolution.Kept
import ObjectQuery.Proofs.Resolution.Trace
import ObjectQuery.Proofs.Resolution.Unselected

namespace ObjectQuery

/-!
Aliases while names are resolved. Each belongs to one selected field, letter case
aside. Columns of objects around a list of related rows cannot be selected, so
that those which are read there have no aliases.
-/

namespace Field

variable {Q : Type} {length : Nat} {start : Path}

/-- The keys of the aliases of the fields. -/
def aliasKeys (fields : List (Field Q)) : List String :=
  fields.filterMap fun field => field.aliasName.map lowerText

theorem mem_aliasKeys {fields : List (Field Q)} {key : String} :
    key ∈ aliasKeys fields ↔
      ∃ field ∈ fields, ∃ aliasName, field.aliasName = some aliasName ∧
        lowerText aliasName = key := by
  simp [aliasKeys]

theorem aliasKeys_append (left right : List (Field Q)) :
    aliasKeys (left ++ right) = aliasKeys left ++ aliasKeys right :=
  List.filterMap_append

theorem aliasKeys_eq_nil {fields : List (Field Q)}
    (unnamed : ∀ field ∈ fields, field.aliasName = none) : aliasKeys fields = [] :=
  List.filterMap_eq_nil_iff.2 fun field member => by rw [unnamed field member]; rfl

/-- The columns that the field reads have no aliases if their paths are not longer. -/
def Quiet (length : Nat) (field : Field Q) : Prop :=
  ∀ column ∈ field.columns, ∀ path, column.kind = .column path → path.length ≤ length →
    column.aliasName = none

theorem Unaliased.quiet {field : Field Q} (unaliased : field.Unaliased) : field.Quiet length :=
  fun column reads _ _ _ => unaliased column reads

/-- Nothing in the field has an alias, and it is itself no column unless its path is longer. -/
structure Selects (length : Nat) (field : Field Q) : Prop where
  arguments : field.TakesUnaliased
  longer : ∀ path, field.kind = .column path → length < path.length

theorem Selects.quiet {field : Field Q} (selects : field.Selects length) : field.Quiet length := by
  intro column reads path kind short
  by_cases isColumn : field.kind.isColumn = true
  · rw [columns_of_isColumn isColumn, List.mem_singleton] at reads
    subst reads
    exact absurd short (Nat.not_le.2 (selects.longer path kind))
  · exact unaliased_of_arguments (Bool.eq_false_iff.2 isColumn) selects.arguments column reads

theorem selects_of_arguments {field : Field Q} (other : field.kind.isColumn = false)
    (arguments : field.TakesUnaliased) : field.Selects length where
  arguments := arguments
  longer path kind := by
    rw [kind] at other
    cases other

/-- Columns of objects around a list of related rows are refused where they are selected. -/
theorem resolveColumn_selects {use : FieldUse} (select : use.place = .select)
    (outermost : use.isArgument = false) {path : Path} (named : path ≠ []) (field : Field Q) :
    Step.Yields (fun scope : Scope Q => scope.StartsAt start) (field.resolveColumn use path)
      (Selects start.length) := by
  refine resolveColumn_yields (Scope.lasting_startsAt.qualify use.registers path)
    (fun empty => absurd empty named) fun scope qualified starts _ admitted => ?_
  refine ⟨fun _ impossible => (by cases impossible), ?_⟩
  rintro _ ⟨⟩
  rw [← Scope.primary_of_startsAt starts]
  exact admitted.longer select outermost

theorem resolve_selects {use : FieldUse} (select : use.place = .select)
    (outermost : use.isArgument = false) {field : Field Q} (names : field.Names (· ≠ []))
    (arguments : field.TakesUnaliased) :
    Step.Yields (fun scope : Scope Q => scope.StartsAt start) (field.resolve use)
      (Selects start.length) := by
  by_cases isColumn : field.kind.isColumn = true
  · obtain ⟨path, kind⟩ := exists_eq_column isColumn
    have named : path ≠ [] := names.1 field (by simp [columns_of_isColumn isColumn]) path kind
    cases field
    cases kind
    exact resolveColumn_selects select outermost named _
  · have other := Bool.eq_false_iff.2 isColumn
    have unaliased := stays_unaliased.resolving.resolve use field (unaliased_of_arguments other arguments)
    refine (((Scope.lasting_startsAt.resolving.resolve use field trivial).and unaliased).and
      (resolving_becomes.resolve use field trivial)).mono ?_
    rintro resolved ⟨⟨_, unaliased⟩, becomes⟩
    exact selects_of_arguments (becomes.isColumn.trans other) unaliased.arguments

theorem resolveUnlessNested_selects {use : FieldUse} (select : use.place = .select)
    (outermost : use.isArgument = false) {field : Field Q} (names : field.Names (· ≠ []))
    (arguments : field.TakesUnaliased) :
    Step.Yields (fun scope : Scope Q => scope.StartsAt start) (resolveUnlessNested use field)
      (Selects start.length) := by
  refine .ite (fun nested => .pure (selects_of_arguments ?_ arguments)) fun _ =>
    resolve_selects select outermost names arguments
  cases kind : field.kind <;> rw [kind] at nested <;> first | rfl | cases nested

theorem addAlias_adds (selected : SelectAliases Q) (field : Field Q) :
    Step.Yields (fun _ => True) (addAlias selected field) fun more =>
      (∀ name ∈ field.aliasName, selected.contains (lowerText name) = false ∧
        more.contains (lowerText name) = true) ∧
      ∀ key, selected.contains key = true → more.contains key = true := by
  unfold addAlias
  split
  · rename_i unnamed
    exact .pure ⟨by simp [unnamed], fun _ known => known⟩
  · rename_i name named
    refine .ite (fun _ => .throw) fun unknown => .pure ⟨?_, fun key known => ?_⟩
    · rw [named]
      rintro _ ⟨⟩
      exact ⟨Bool.eq_false_iff.2 unknown, (SortedMap.contains_insert ..).2 (.inl rfl)⟩
    · exact (SortedMap.contains_insert ..).2 (.inr known)

/-- The aliases of selected fields differ from each other and from those before. -/
theorem resolveSelected_distinct (use : FieldUse) (selected : SelectAliases Q)
    (fields : List (Field Q)) :
    Step.Yields (fun _ => True) (resolveSelected use selected fields) fun result =>
      (aliasKeys result.1).Nodup ∧
        ∀ key ∈ aliasKeys result.1, selected.contains key = false := by
  induction fields generalizing selected with
  | nil => exact .pure (by simp [aliasKeys])
  | cons field rest induction =>
      rw [resolveSelected_cons]
      refine .after fun resolved => (addAlias_adds selected resolved).bind ?_
      rintro more ⟨added, kept⟩
      refine (induction more).bind fun result given => .pure ?_
      obtain ⟨distinct, apart⟩ := given
      have unknown : ∀ key ∈ aliasKeys result.1, selected.contains key = false := by
        intro key member
        refine Bool.eq_false_iff.2 fun known => ?_
        exact Bool.eq_false_iff.1 (apart key member) (kept key known)
      cases named : resolved.aliasName with
      | none =>
          have same : aliasKeys (resolved :: result.1) = aliasKeys result.1 := by
            simp [aliasKeys, named]
          rw [same]
          exact ⟨distinct, unknown⟩
      | some name =>
          have same : aliasKeys (resolved :: result.1) = lowerText name :: aliasKeys result.1 := by
            simp [aliasKeys, named]
          obtain ⟨new, known⟩ := added name named
          rw [same, List.nodup_cons, List.forall_mem_cons]
          refine ⟨⟨fun member => ?_, distinct⟩, new, unknown⟩
          exact Bool.eq_false_iff.1 (apart _ member) known

/--
Fields that are selected, and columns after them that are only read. These have
no aliases and other keys, as those do whose paths are not longer.
-/
structure Arranged (length : Nat) (selected added : List (Field Q)) : Prop where
  longer : ∀ field ∈ selected, ∀ path, field.kind = .column path → length < path.length
  unnamed : ∀ field ∈ added, field.kind.isColumn = true ∧ field.aliasName = none
  distinct : (added.map (·.key)).Nodup
  apart : ∀ field ∈ added, field.key ∉ columnKeys selected

end Field

theorem OrderKey.resolve_unaliased {Q : Type} (use : FieldUse) {selected : SelectAliases Q}
    {order : OrderKey Q} {property : Field Q → Prop} (unaliased : order.field.Unaliased)
    (named : ∀ name field, selected.find? name = some field → property field) :
    Step.Yields (fun _ => True) (order.resolve use selected) fun resolved =>
      resolved.field.Unaliased ∨ property resolved.field := by
  exact resolve_yields (fun resolved => resolved.Unaliased ∨ property resolved)
    (fun _ field _ found => .inr (named _ field found)) fun _ =>
      (Field.stays_unaliased.resolving.resolve use order.field unaliased).mono fun _ => .inl

namespace Statement

variable {Q : Type} {statement : Statement Q} {length : Nat}

/-- The fields that are selected, before those that are only read, and where these come from. -/
structure SelectsAliases (length : Nat) (statement : Statement Q) : Prop where
  fields : ∀ field ∈ statement.fields, field.Selects length
  distinct : (Field.aliasKeys statement.fields).Nodup
  filter : ∀ field ∈ statement.filter.filterMap Condition.operand?, field.Unaliased
  groupBy : ∀ field ∈ statement.groupBy, field.Unaliased ∨ field ∈ statement.fields
  having : ∀ field ∈ statement.having.filterMap Condition.operand?, field.Unaliased
  orderBy : ∀ order ∈ statement.orderBy, order.field.Unaliased ∨ order.field ∈ statement.fields

/-- What is known of aliases when the names of a statement are resolved. -/
structure AliasesKnown (length : Nat) (statement : Statement Q) : Prop where
  distinct : (Field.aliasKeys statement.fields).Nodup
  quiet : ∀ field ∈ statement.everyField, field.Quiet length
  arranged : ∃ selected added, statement.fields = selected ++ added ∧
    Field.Arranged length selected added

namespace SelectsAliases

/-- A column that is read but not selected has no alias. -/
theorem aliasName_of_mem_unselected (selects : statement.SelectsAliases length)
    {column : Field Q} (member : column ∈ statement.unselected) : column.aliasName = none := by
  have other (own : column ∈ statement.fields) : False := by
    refine not_mem_columnKeys member (Field.mem_columnKeys.2 ⟨column, own, ?_, rfl⟩)
    exact isColumn_of_mem_unselected member
  have read {field : Field Q} (given : field.Unaliased ∨ field ∈ statement.fields)
      (reads : Field.ReadsColumn column field) : column.aliasName = none := by
    rcases given with unaliased | own
    · exact unaliased column reads.mem_columns
    · cases reads with
      | itself => exact (other own).elim
      | argument given reads =>
          exact (selects.fields _ own).arguments _ given column reads.mem_columns
  cases needs_of_mem_unselected member with
  | argument selected given reads => exact read (.inr selected) (.argument given reads)
  | filter given reads => exact read (.inl (selects.filter _ (mem_operands.2 given))) reads
  | groupBy given reads => exact read (selects.groupBy _ given) reads
  | having given reads => exact read (.inl (selects.having _ (mem_operands.2 given))) reads
  | orderBy given isColumn same =>
      subst same
      exact read (selects.orderBy _ given) (.itself isColumn)

theorem unnamed_of_mem_appended (selects : statement.SelectsAliases length) :
    ∀ field ∈ statement.unselected.map fun field => { field with notSelected := true },
      field.kind.isColumn = true ∧ field.aliasName = none := by
  intro field member
  obtain ⟨column, read, rfl⟩ := List.mem_map.1 member
  have isColumn : column.kind.isColumn = true := isColumn_of_mem_unselected read
  have unnamed : column.aliasName = none := selects.aliasName_of_mem_unselected read
  exact ⟨isColumn, unnamed⟩

theorem aliasKeys_selectRead (selects : statement.SelectsAliases length) :
    Field.aliasKeys statement.selectRead.fields = Field.aliasKeys statement.fields := by
  rw [fields_selectRead, Field.aliasKeys_append, Field.aliasKeys_eq_nil fun field member =>
    (selects.unnamed_of_mem_appended field member).2, List.append_nil]

theorem selectRead (selects : statement.SelectsAliases length) :
    statement.selectRead.AliasesKnown length := by
  have unnamed := selects.unnamed_of_mem_appended
  have quiet {field : Field Q} (given : field.Unaliased ∨ field ∈ statement.fields) :
      field.Quiet length :=
    given.elim Field.Unaliased.quiet fun own => (selects.fields field own).quiet
  refine ⟨selects.aliasKeys_selectRead ▸ selects.distinct,
    forall_everyField_iff.2 ⟨?_, ?_, ?_, ?_, ?_⟩, _, _, fields_selectRead statement, ?_⟩
  · rw [fields_selectRead, List.forall_mem_append]
    refine ⟨fun field own => quiet (.inr own), fun field member => ?_⟩
    exact ((Field.unaliased_of_isColumn (unnamed field member).1).2 (unnamed field member).2).quiet
  · exact fun field member => quiet (.inl (selects.filter field member))
  · exact fun field member => quiet (selects.groupBy field member)
  · exact fun field member => quiet (.inl (selects.having field member))
  · exact fun order member => quiet (selects.orderBy order member)
  · refine ⟨fun field own => (selects.fields field own).longer, unnamed, ?_, ?_⟩
    · rw [List.map_map]
      exact (Field.keys_firstsOf _ _).1
    · intro field member
      obtain ⟨column, read, rfl⟩ := List.mem_map.1 member
      have apart : column.key ∉ Field.columnKeys statement.fields := not_mem_columnKeys read
      exact apart

end SelectsAliases

/-- When its names are resolved, the aliases of a statement are those of its selected fields. -/
theorem resolve_aliases (place : QueryPlace) (primary : Path)
    (filtered : Condition.IsFilter statement.filter) (grouped : Condition.IsFilter statement.having)
    (names : ∀ field ∈ statement.fields, field.Names (· ≠ []))
    (aliases : statement.AliasesSelected) {before : Scope Q} (nonempty : before.objects ≠ []) :
    Step.Meets (statement.resolve place primary) before
      (fun result _ => result.1.AliasesKnown result.1.primary.length ∧
        ∀ key ∈ Field.aliasKeys result.1.fields, key ∈ result.2.keys)
      CompileError.IsSemantic := by
  refine (resolve_course place primary filtered grouped before).mono ?_
  rintro _ _ ⟨course, rfl, rfl⟩
  have sourced := (Scope.resolveObjects_meets place primary nonempty).of_ok course.sources
  have keeps := course.keeps Scope.lasting_startsAt (Scope.exists_startsAt sourced)
  generalize course.sourced.primary = start at keeps
  have stays : Field.Stays (Field.Unaliased : Field Q → Prop) := Field.stays_unaliased
  obtain ⟨keys, _⟩ :=
    stays.resolving.resolveAll _ statement.groupBy aliases.groupBy trivial course.groups
  obtain ⟨selects, _⟩ := course.forall₂_fields (fun field member =>
    Field.resolveUnlessNested_selects rfl rfl (names field member) (aliases.fields field member))
    keeps.counting
  obtain ⟨⟨distinct, _⟩, _⟩ :=
    Field.resolveSelected_distinct _ .empty statement.fields trivial course.selects
  have named : ∀ name field, course.selected.find? name = some field → field ∈ course.fields :=
    fun _ _ => course.mem_fields_of_find?
  have replaced : ∀ field ∈ course.groupBy, field.Unaliased ∨ field ∈ course.fields :=
    course.forall_groupBy (fun name field found => .inr (named name field found))
      fun field member => .inl (Step.forall_of_forall₂ keys field member)
  have filters := course.forall_filter stays aliases.filter
  have havings := course.forall_having stays aliases.having
  obtain ⟨orders, _⟩ := course.forall₂_orderBy
    (fun order member => OrderKey.resolve_unaliased _ (aliases.orderBy order member) named) trivial
  have known : course.resolved.SelectsAliases start.length :=
    ⟨Step.forall_of_forall₂ selects, distinct, filters, replaced, havings,
      Step.forall_of_forall₂ orders⟩
  dsimp only
  refine ⟨?_, ?_⟩
  · rw [course.primary_resolved keeps.ordering]
    exact known.selectRead
  · rw [known.aliasKeys_selectRead]
    intro key member
    obtain ⟨field, given, aliasName, named, rfl⟩ := Field.mem_aliasKeys.1 member
    have listed := course.labels.listed field given aliasName named
    exact SortedMap.mem_keys_iff.2 (by rw [SortedMap.contains, listed]; rfl)

end Statement

end ObjectQuery
