import ObjectQuery.Proofs.Resolution.Column
import ObjectQuery.Proofs.Resolution.Source

namespace ObjectQuery

/-!
Resolving the clauses of a statement. Its columns belong to its objects, or to
those around a list of related rows, and all of them are among its fields.
-/

namespace Field

open Scope (Leads)

variable {Q : Type} {known : Path → Prop} {before : Scope Q}

theorem resolveUnlessNested_meets (use : FieldUse) {field : Field Q}
    (names : field.Names Path.Plain) (sound : before.Sound known)
    (nonempty : before.objects ≠ []) :
    Step.Meets (resolveUnlessNested use field) before fun resolved after =>
      Leads known before after ∧ resolved.Located known after.objects := by
  refine .ite (fun nested => .pure ⟨.refl sound, ?_⟩) fun _ => ?_
  · cases kind : field.kind <;> rw [kind] at nested <;> cases nested
    exact located_of_names_nothing (by simp [kind, kindNamed])
  · exact resolve_meets use field sound nonempty names.1 (.inr names.2)

theorem resolveSelected_meets (use : FieldUse) (selected : SelectAliases Q)
    {fields : List (Field Q)} (names : ∀ field ∈ fields, field.Names Path.Plain)
    (sound : before.Sound known) (nonempty : before.objects ≠ []) :
    Step.Meets (resolveSelected use selected fields) before fun result after =>
      Leads known before after ∧ ∀ field ∈ result.1, field.Located known after.objects := by
  induction fields generalizing selected before with
  | nil => exact .pure ⟨.refl sound, by simp⟩
  | cons field rest induction =>
      obtain ⟨first, later⟩ := List.forall_mem_cons.1 names
      rw [resolveSelected_cons]
      refine (resolveUnlessNested_meets use first sound nonempty).bind ?_
      rintro resolved middle ⟨leads, located⟩
      have aliased : Step.Yields (· = middle) (addAlias selected resolved) fun _ => True :=
        addAlias_yields selected resolved
      refine (aliased.meets rfl).bind ?_
      rintro selected _ ⟨-, rfl⟩
      refine (induction selected later leads.sound (leads.objects_ne_nil nonempty)).bind ?_
      rintro others after ⟨more, locatedToo⟩
      refine .pure ⟨leads.trans more, ?_⟩
      exact List.forall_mem_cons.2 ⟨located.mono more.objects.subset, locatedToo⟩

theorem exists_find?_of_selectedFor? {selected : SelectAliases Q} {depth : Nat}
    {key field : Field Q} (found : selectedFor? selected depth key = some field) :
    ∃ name, selected.find? name = some field := by
  unfold selectedFor? at found
  obtain ⟨path, _, rest⟩ := Option.bind_eq_some_iff.1 found
  split at rest
  · obtain ⟨segment, _, present⟩ := Option.bind_eq_some_iff.1 rest
    exact ⟨_, present⟩
  · cases rest

theorem forall_replaceKeys {property : Field Q → Prop} {selected : SelectAliases Q} (depth : Nat)
    (keys : SortedSet String) {groupBy : List (Field Q)}
    (aliases : ∀ name field, selected.find? name = some field → property field)
    (holds : ∀ field ∈ groupBy, property field) :
    ∀ field ∈ (replaceKeys selected depth keys groupBy).1, property field := by
  induction groupBy generalizing keys with
  | nil => simp [replaceKeys]
  | cons key rest induction =>
      obtain ⟨first, later⟩ := List.forall_mem_cons.1 holds
      unfold replaceKeys
      split
      · exact List.forall_mem_cons.2 ⟨first, induction keys later⟩
      · rename_i field found
        obtain ⟨name, present⟩ := exists_find?_of_selectedFor? found
        exact List.forall_mem_cons.2 ⟨aliases name field present, induction _ later⟩

theorem resolveConditions_meets (use : FieldUse) {conditions : List (Condition (Field Q))}
    (names : ∀ field ∈ conditions.filterMap Condition.operand?, field.Names Path.Plain)
    (sound : before.Sound known) (nonempty : before.objects ≠ []) :
    Step.Meets (resolveConditions use conditions) before fun resolved after =>
      Leads known before after ∧
        ∀ field ∈ resolved.filterMap Condition.operand?, field.Located known after.objects := by
  induction conditions generalizing before with
  | nil => exact .pure ⟨.refl sound, by simp⟩
  | cons entry rest induction =>
      cases entry with
      | operand field =>
          obtain ⟨first, later⟩ := List.forall_mem_cons.1 names
          rw [resolveConditions_cons]
          refine (resolveUnlessNested_meets use first sound nonempty).bind ?_
          rintro resolved middle ⟨leads, located⟩
          refine (induction later leads.sound (leads.objects_ne_nil nonempty)).bind ?_
          rintro others after ⟨more, locatedToo⟩
          refine .pure ⟨leads.trans more, ?_⟩
          exact List.forall_mem_cons.2 ⟨located.mono more.objects.subset, locatedToo⟩
      | noop | unknown | operator op =>
          exact (induction names sound nonempty).bind fun others after resolves => .pure resolves

end Field

namespace OrderKey

open Scope (Leads)

variable {Q : Type} {known : Path → Prop} {before : Scope Q}

theorem resolve_meets (use : FieldUse) {selected : SelectAliases Q} {order : OrderKey Q}
    (names : order.field.Names Path.Plain) (sound : before.Sound known)
    (nonempty : before.objects ≠ [])
    (aliases : ∀ key field, selected.find? key = some field →
      field.Located known before.objects) :
    Step.Meets (order.resolve use selected) before fun resolved after =>
      Leads known before after ∧ resolved.field.Located known after.objects := by
  unfold resolve
  dsimp only
  split
  · rename_i field named
    refine .pure ⟨.refl sound, ?_⟩
    split at named
    · exact aliases _ _ named
    · cases named
  · exact (Field.resolve_meets use order.field sound nonempty names.1 (.inr names.2)).bind
      fun resolved after located => .pure located

theorem resolveOrders_meets (use : FieldUse) {selected : SelectAliases Q}
    {orders : List (OrderKey Q)} (names : ∀ order ∈ orders, order.field.Names Path.Plain)
    (sound : before.Sound known) (nonempty : before.objects ≠ [])
    (aliases : ∀ key field, selected.find? key = some field →
      field.Located known before.objects) :
    Step.Meets (orders.mapM fun order => order.resolve use selected) before
      fun resolved after => Leads known before after ∧
        ∀ order ∈ resolved, order.field.Located known after.objects := by
  let reached (results : List (OrderKey Q)) (state : Scope Q) : Prop :=
    Leads known before state ∧ ∀ order ∈ results, order.field.Located known state.objects
  have begins : reached [] before := ⟨.refl sound, by simp⟩
  have each : ∀ order ∈ orders, ∀ results state, reached results state →
      Step.Meets (order.resolve use selected) state fun resolved after =>
        True ∧ reached (results ++ [resolved]) after := by
    rintro order member results state ⟨leads, located⟩
    refine (resolve_meets use (names order member) leads.sound (leads.objects_ne_nil nonempty)
      fun key field found => (aliases key field found).mono leads.objects.subset).mono ?_
    rintro resolved after ⟨more, found⟩
    refine ⟨trivial, leads.trans more, List.forall_mem_append.2 ⟨?_, by simpa using found⟩⟩
    exact fun order member => (located order member).mono more.objects.subset
  exact (Step.Meets.mapM reached begins each).mono fun _ _ => And.right

end OrderKey

namespace SourceObject

theorem mem_inOrder {Q : Type} {objects : List (SourceObject Q)} {object : SourceObject Q} :
    object ∈ inOrder objects ↔ object ∈ objects := by
  cases objects <;> simp [inOrder]

end SourceObject

namespace Field

variable {Q : Type}

theorem exists_mem_firstsOf (seen : SortedSet String) {fields : List (Field Q)} {field : Field Q}
    (member : field ∈ fields) : SortedMap.contains seen field.key = true ∨
      ∃ first ∈ firstsOf seen fields, first.key = field.key := by
  induction fields generalizing seen with
  | nil => cases member
  | cons head rest induction =>
      unfold firstsOf
      split
      · rename_i known
        rcases List.mem_cons.1 member with rfl | later
        · exact .inl known
        · exact induction seen later
      · rcases List.mem_cons.1 member with rfl | later
        · exact .inr ⟨field, List.mem_cons_self, rfl⟩
        · rcases induction (SortedSet.add seen head.key) later with known | ⟨first, given, same⟩
          · rcases (SortedSet.contains_add seen head.key field.key).1 known with same | known
            · exact .inr ⟨head, List.mem_cons_self, same⟩
            · exact .inl known
          · exact .inr ⟨first, List.mem_cons_of_mem _ given, same⟩

end Field

namespace Statement

open Scope (Leads)

variable {Q : Type} {known : Path → Prop} {statement : Statement Q}

/-- The parts of a statement are located among its objects and those that are known. -/
structure ClausesLocated (known : Path → Prop) (statement : Statement Q) : Prop where
  objects : ∀ object ∈ statement.objects,
    object.path.LocatedIn known statement.objects ∧ object.key = object.path.key
  fields : ∀ field ∈ statement.fields, field.Located known statement.objects
  filter : ∀ field ∈ statement.filter.filterMap Condition.operand?,
    field.Located known statement.objects
  groupBy : ∀ field ∈ statement.groupBy, field.Located known statement.objects
  having : ∀ field ∈ statement.having.filterMap Condition.operand?,
    field.Located known statement.objects
  orderBy : ∀ order ∈ statement.orderBy, order.field.Located known statement.objects

/--
A resolved statement. Its columns belong to its objects, or to those around it,
and the key of each is the key of a column that it selects.
-/
structure Located (known : Path → Prop) (statement : Statement Q) : Prop where
  objects : ∀ object ∈ statement.objects,
    object.path.LocatedIn known statement.objects ∧ object.key = object.path.key
  named : Field.AllNamed (Path.FoundIn known statement.objects) statement.named
  selected : ∀ column ∈ statement.columns, ∃ field ∈ statement.fields,
    field.kind.isColumn = true ∧ field.key = column.key

theorem Located.columns (located : statement.Located known) :
    Field.AllRead (Path.FoundIn known statement.objects) statement.columns :=
  located.named.columns statement.columns_subset_named

theorem Located.fields (located : statement.Located known) : ∀ field ∈ statement.fields,
    ∀ path, field.kind.path? = some path → path.FoundIn known statement.objects field.key :=
  fun field member path kind => located.named field (mem_named_of_fields member kind) path kind

theorem ClausesLocated.named (located : statement.ClausesLocated known) :
    Field.AllNamed (Path.FoundIn known statement.objects) statement.named := by
  intro named member path kind
  obtain ⟨field, given, own⟩ := Field.mem_allNamed.1 member
  rcases mem_everyField_iff.1 given with clause | clause | clause | clause | clause
  · exact located.fields field clause named own path kind
  · exact located.filter field clause named own path kind
  · exact located.groupBy field clause named own path kind
  · exact located.having field clause named own path kind
  · obtain ⟨order, sorted, rfl⟩ := List.mem_map.1 clause
    exact located.orderBy order sorted named own path kind

/-- The columns that are read but not selected, one for each key. -/
def unselected (statement : Statement Q) : List (Field Q) :=
  Field.firstsOf (SortedSet.ofList ((statement.fields.filter (·.kind.isColumn)).map (·.key)))
    statement.columns

theorem fields_selectRead (statement : Statement Q) :
    statement.selectRead.fields =
      statement.fields ++
        statement.unselected.map fun field => { field with notSelected := true } :=
  rfl

theorem isColumn_of_mem_unselected {column : Field Q} (member : column ∈ statement.unselected) :
    column.kind.isColumn = true :=
  isColumn_of_mem_columns (Field.mem_of_mem_firstsOf member)

theorem mem_columns_selectRead {column : Field Q} (member : column ∈ statement.selectRead.columns) :
    column ∈ statement.columns ∨
      ∃ first ∈ statement.unselected, column = { first with notSelected := true } := by
  refine (mem_columns_append member).imp_right fun added => ?_
  obtain ⟨field, given, reads⟩ := Field.mem_allColumns.1 added
  obtain ⟨first, read, rfl⟩ := List.mem_map.1 given
  have kind : first.kind.isColumn = true := isColumn_of_mem_unselected read
  have own : ({ first with notSelected := true } : Field Q).columns = [_] :=
    Field.columns_of_isColumn kind
  rw [own] at reads
  exact ⟨first, read, List.mem_singleton.1 reads⟩

/-- Each column that is read has the key of a column that is selected in the end. -/
theorem exists_selected_key {column : Field Q} (member : column ∈ statement.columns) :
    ∃ field ∈ statement.selectRead.fields,
      field.kind.isColumn = true ∧ field.key = column.key := by
  rw [fields_selectRead]
  rcases Field.exists_mem_firstsOf _ member with known | ⟨first, given, same⟩
  · rw [SortedSet.contains_ofList] at known
    obtain ⟨field, selected, same⟩ := List.mem_map.1 known
    obtain ⟨own, kind⟩ := List.mem_filter.1 selected
    exact ⟨field, List.mem_append_left _ own, kind, same⟩
  · have column : first.kind.isColumn = true := isColumn_of_mem_unselected given
    exact ⟨_, List.mem_append_right _ (List.mem_map_of_mem given), column, same⟩

theorem mem_named_selectRead {field : Field Q} (member : field ∈ statement.selectRead.named) :
    field ∈ statement.named ∨
      ∃ first ∈ statement.unselected, field = { first with notSelected := true } := by
  refine (mem_named_append member).imp_right fun added => ?_
  obtain ⟨own, given, named⟩ := Field.mem_allNamed.1 added
  obtain ⟨first, read, rfl⟩ := List.mem_map.1 given
  obtain ⟨path, kind⟩ := Field.exists_eq_column (isColumn_of_mem_unselected read)
  have path? : ({ first with notSelected := true } : Field Q).kind.path? = some path :=
    congrArg FieldKind.path? kind
  rw [Field.named_of_path? path?] at named
  exact ⟨first, read, List.mem_singleton.1 named⟩

theorem ClausesLocated.selectRead (located : statement.ClausesLocated known) :
    statement.selectRead.Located known where
  objects := located.objects
  named := by
    intro field member path kind
    rcases mem_named_selectRead member with own | ⟨first, given, rfl⟩
    · exact located.named field own path kind
    · have read : first ∈ statement.columns := Field.mem_of_mem_firstsOf given
      exact located.named first (statement.columns_subset_named read) path kind
  selected := by
    intro column member
    rcases mem_columns_selectRead member with own | ⟨first, given, rfl⟩
    · exact exists_selected_key own
    · have read : first ∈ statement.columns := Field.mem_of_mem_firstsOf given
      obtain ⟨field, selected, kind, same⟩ := exists_selected_key read
      exact ⟨field, selected, kind, same⟩

namespace Course

variable {place : QueryPlace} {primary : Path} {before : Scope Q}

/-- What holds of the keys as they are written, and of what takes their place, holds of the keys. -/
theorem forall_groupBy (course : Course place primary statement before)
    {property : Field Q → Prop}
    (aliases : ∀ name field, course.selected.find? name = some field → property field)
    (written : ∀ field ∈ course.written, property field) :
    ∀ field ∈ course.groupBy, property field := by
  have replaced := Field.forall_replaceKeys course.selecting.primary.length
    (SortedSet.ofList (course.written.map (·.key))) aliases written
  rwa [course.replaces] at replaced

/-- What the clauses name is located among the objects that are known in the end. -/
structure IsLocated (known : Path → Prop) (course : Course place primary statement before) :
    Prop where
  sound : course.ordering.Sound known
  written : ∀ field ∈ course.written, field.Located known course.ordering.objects
  fields : ∀ field ∈ course.fields, field.Located known course.ordering.objects
  groupBy : ∀ field ∈ course.groupBy, field.Located known course.ordering.objects
  filter : ∀ field ∈ course.filter.filterMap Condition.operand?,
    field.Located known course.ordering.objects
  having : ∀ field ∈ course.having.filterMap Condition.operand?,
    field.Located known course.ordering.objects
  orderBy : ∀ order ∈ course.orderBy, order.field.Located known course.ordering.objects

theorem isLocated (course : Course place primary statement before)
    (names : statement.Names Path.Plain) (sound : course.sourced.Sound known)
    (nonempty : course.sourced.objects ≠ []) : course.IsLocated known := by
  have keeps := course.keeps Scope.lasting_objects_ne_nil nonempty
  obtain ⟨toGrouping, written⟩ := (Field.resolveAll_meets _ _ sound nonempty
    (Field.allRead_of_names names.groupBy)
    (.inr fun field member => (names.groupBy field member).2)).of_ok course.groups
  have toCounting : Leads known course.grouping course.counting :=
    course.counts ▸ Scope.leads_mention toGrouping.sound _ _
  obtain ⟨toSelecting, fields⟩ := (Field.resolveSelected_meets _ .empty names.fields
    toCounting.sound keeps.counting).of_ok course.selects
  have aliases (key : String) (field : Field Q) (found : course.selected.find? key = some field) :
      field.Located known course.selecting.objects :=
    fields field (course.mem_fields_of_find? found)
  obtain ⟨toFiltering, filter⟩ := (Field.resolveConditions_meets _
    (course.distributes.operands ▸ names.filter) toSelecting.sound keeps.selecting).of_ok
      course.filters
  obtain ⟨toRestricting, having⟩ := (Field.resolveConditions_meets _
    (course.parts.operands ▸ names.having) toFiltering.sound keeps.filtering).of_ok
      course.restricts
  obtain ⟨toOrdering, orderBy⟩ := (OrderKey.resolveOrders_meets _ names.orderBy
    toRestricting.sound keeps.restricting fun key field found =>
      (aliases key field found).mono (toFiltering.trans toRestricting).objects.subset).of_ok
        course.orders
  have fromFiltering := (toRestricting.trans toOrdering).objects.subset
  have fromSelecting := List.Subset.trans toFiltering.objects.subset fromFiltering
  have fromGrouping :=
    List.Subset.trans (toCounting.trans toSelecting).objects.subset fromSelecting
  have groupBy := course.forall_groupBy
    (fun key field found => (aliases key field found).mono fromSelecting)
    fun field member => (written field member).mono fromGrouping
  exact {
    sound := toOrdering.sound
    written := fun field member => (written field member).mono fromGrouping
    fields := fun field member => (fields field member).mono fromSelecting
    groupBy
    filter := fun field member => (filter field member).mono fromFiltering
    having := fun field member => (having field member).mono toOrdering.objects.subset
    orderBy }

end Course

/-- Where names hold no dots, the columns of a statement are found when it is resolved. -/
theorem resolve_located (place : QueryPlace) {primary : Path} (primaryPlain : primary.Plain)
    (declared : ∀ object ∈ statement.objects, Declared object) (undotted : statement.Undotted)
    (filtered : Condition.IsFilter statement.filter) (grouped : Condition.IsFilter statement.having)
    {before : Scope Q} (own : before.objects = statement.objects)
    (objects : before.objects ≠ []) (inherits : Scope.Inherits known before.aliases) :
    Step.Meets (statement.resolve place primary) before
      (fun result after => result.1.Located known ∧ after.Sound known)
      CompileError.IsSemantic := by
  refine (resolve_course place primary filtered grouped before).mono ?_
  rintro _ _ ⟨course, rfl, rfl⟩
  have sourced := (Scope.resolveObjects_sound place primaryPlain (own ▸ declared)
    (own ▸ undotted.objects) inherits).of_ok course.sources
  have nonempty := (Scope.resolveObjects_meets place primary objects).of_ok course.sources
  have located := course.isLocated undotted.names sourced nonempty
  have inOrder : course.ordering.objects ⊆ SourceObject.inOrder course.ordering.objects :=
    fun _ => SourceObject.mem_inOrder.2
  refine ⟨ClausesLocated.selectRead {
    objects := fun object member =>
      (located.sound.objects object (SourceObject.mem_inOrder.1 member)).imp_left
        fun located => located.mono inOrder
    fields := fun field member => (located.fields field member).mono inOrder
    filter := fun field member => (located.filter field member).mono inOrder
    groupBy := fun field member => (located.groupBy field member).mono inOrder
    having := fun field member => (located.having field member).mono inOrder
    orderBy := fun order member => (located.orderBy order member).mono inOrder }, located.sound⟩

end Statement

end ObjectQuery
