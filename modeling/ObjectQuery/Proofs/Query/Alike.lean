import ObjectQuery.Proofs.Query.Column
import ObjectQuery.Proofs.Query.Nested

namespace ObjectQuery

/-!
What numbering and planning leave of a statement: all but the names, numbers and
places that its fields are given, and what its objects are given.
-/

mutual

def FieldKind.bare : FieldKind Q → FieldKind Q
  | .column path => .column path
  | .fieldSet path => .fieldSet path
  | .call name arguments => .call name (Field.allBare arguments)
  | .subquery query => .subquery query
  | .literal value => .literal value
  | .parameter name => .parameter name
  | .relativeDate date => .relativeDate date

/-- The field without the name, the number and the place that it was given. -/
def Field.bare : Field Q → Field Q
  | ⟨kind, _, notSelected, aggregated, key, _, _⟩ =>
      ⟨kind.bare, none, notSelected, aggregated, key, none, none⟩

def Field.allBare : List (Field Q) → List (Field Q)
  | [] => []
  | field :: rest => field.bare :: Field.allBare rest

end

/-- What is in one of two lists that look the same looks like something in the other. -/
theorem exists_mem_of_map_eq {α β : Type} {view : α → β} {before after : List α}
    (same : after.map view = before.map view) {value : α} (member : value ∈ after) :
    ∃ other ∈ before, view other = view value := by
  have shown : view value ∈ before.map view := same ▸ List.mem_map_of_mem member
  obtain ⟨other, given, alike⟩ := List.mem_map.1 shown
  exact ⟨other, given, alike⟩

theorem exists_getElem?_of_map_eq {α β γ : Type} {f : α → γ} {g : β → γ} {before : List α}
    {after : List β} (same : after.map g = before.map f) {index : Nat} {value : α}
    (present : before[index]? = some value) :
    ∃ other, after[index]? = some other ∧ g other = f value := by
  have places := congrArg (·[index]?) same
  simp only [List.getElem?_map, present, Option.map_some] at places
  exact Option.map_eq_some_iff.1 places

namespace Field

variable {Q : Type}

@[simp]
theorem allBare_eq_map (fields : List (Field Q)) : allBare fields = fields.map bare := by
  induction fields with
  | nil => rfl
  | cons field rest induction => simp [allBare, induction]

theorem bare_eq (field : Field Q) :
    field.bare = ⟨field.kind.bare, none, field.notSelected, field.aggregated, field.key, none,
      none⟩ := by
  cases field
  rfl

@[simp]
theorem kind_bare (field : Field Q) : field.bare.kind = field.kind.bare := by
  cases field
  rfl

@[simp]
theorem key_bare (field : Field Q) : field.bare.key = field.key := by
  cases field
  rfl

@[simp]
theorem query?_bare (kind : FieldKind Q) : kind.bare.query? = kind.query? := by
  cases kind <;> rfl

@[simp]
theorem path?_bare (kind : FieldKind Q) : kind.bare.path? = kind.path? := by
  cases kind <;> rfl

@[simp]
theorem isColumn_bare (kind : FieldKind Q) : kind.bare.isColumn = kind.isColumn := by
  cases kind <;> rfl

@[simp]
theorem isCall_bare (kind : FieldKind Q) : kind.bare.isCall = kind.isCall := by
  cases kind <;> rfl

mutual

theorem columns_bare : (field : Field Q) → field.bare.columns = field.columns.map bare
  | ⟨kind, aliasName, notSelected, aggregated, key, columnId, columnIndex⟩ => by
      have same := kindColumns_bare kind
        ⟨kind, aliasName, notSelected, aggregated, key, columnId, columnIndex⟩
      simpa only [bare, columns] using same

theorem kindColumns_bare : (kind : FieldKind Q) → (field : Field Q) →
    kindColumns kind.bare field.bare = (kindColumns kind field).map bare
  | .call _ arguments, _ => allColumns_bare arguments
  | .column _, _ | .fieldSet _, _ | .subquery _, _ | .literal _, _ | .parameter _, _
  | .relativeDate _, _ => rfl

theorem allColumns_bare : (fields : List (Field Q)) →
    allColumns (allBare fields) = (allColumns fields).map bare
  | [] => rfl
  | field :: rest => by
      simp only [allBare, allColumns, List.map_append, columns_bare field, allColumns_bare rest]

end

theorem allColumns_map_bare (fields : List (Field Q)) :
    (allColumns fields).map bare = allColumns (fields.map bare) := by
  rw [← allColumns_bare, allBare_eq_map]

theorem kind_eq_column_of_bare {before after : Field Q} (same : after.bare = before.bare)
    {path : Path} (kind : after.kind = .column path) : before.kind = .column path := by
  have bareKind := congrArg Field.kind same
  rw [kind_bare, kind_bare, kind] at bareKind
  cases own : before.kind <;> rw [own] at bareKind <;> cases bareKind
  rfl

theorem isConstant_bare (field : Field Q) : field.bare.IsConstant ↔ field.IsConstant := by
  unfold IsConstant
  rw [kind_bare]
  cases field.kind <;> simp [FieldKind.bare]

theorem AllRead.of_bare {reads : Path → String → Prop} {before after : List (Field Q)}
    (same : after.map bare = before.map bare) (read : AllRead reads before) :
    AllRead reads after := by
  intro column member path kind
  obtain ⟨other, earlier, alike⟩ := exists_mem_of_map_eq same member
  have key : other.key = column.key := by simpa using congrArg Field.key alike
  rw [← key]
  exact read other earlier path (kind_eq_column_of_bare alike.symm kind)

end Field

namespace Condition

variable {Q : Type}

theorem operand?_map (f : α → β) (entry : Condition α) :
    (entry.map f).operand? = entry.operand?.map f := by
  cases entry <;> rfl

@[simp]
theorem query?_bare (entry : Condition (Field Q)) :
    (entry.map Field.bare).query? = entry.query? := by
  cases entry <;> simp [query?, operand?, Condition.map]

theorem map_operands {γ : Type} {view : Field Q → γ} {left right : List (Condition (Field Q))}
    (same : left.map (Condition.map view) = right.map (Condition.map view)) :
    (left.filterMap operand?).map view = (right.filterMap operand?).map view := by
  have operands := congrArg (List.filterMap operand?) same
  simpa only [List.filterMap_map, Function.comp_def, operand?_map, List.map_filterMap]
    using operands

end Condition

namespace SourceObject

/-- The object without what it was given by numbering and planning. -/
def bare (object : SourceObject Q) : SourceObject Q :=
  { path := object.path, aliasName := object.aliasName, key := object.key }

end SourceObject

namespace Statement

/-- Statements that differ at most in what numbering and planning give to their parts. -/
structure Alike (before after : Statement Q) : Prop where
  id : after.id = before.id
  parentId : after.parentId = before.parentId
  fields : after.fields.map Field.bare = before.fields.map Field.bare
  objects : after.objects.map SourceObject.bare = before.objects.map SourceObject.bare
  filter : after.filter.map (Condition.map Field.bare) =
    before.filter.map (Condition.map Field.bare)
  groupBy : after.groupBy.map Field.bare = before.groupBy.map Field.bare
  groupAliases : after.groupBy.map (·.aliasName) = before.groupBy.map (·.aliasName)
  isAggregation : after.isAggregation = before.isAggregation
  having : after.having.map (Condition.map Field.bare) =
    before.having.map (Condition.map Field.bare)
  orderBy : after.orderBy.map (·.field.bare) = before.orderBy.map (·.field.bare)
  bounds : after.bounds = before.bounds

namespace Alike

variable {Q : Type} {before middle after : Statement Q}

theorem refl (statement : Statement Q) : statement.Alike statement :=
  ⟨rfl, rfl, rfl, rfl, rfl, rfl, rfl, rfl, rfl, rfl, rfl⟩

theorem trans (first : before.Alike middle) (second : middle.Alike after) :
    before.Alike after where
  id := second.id.trans first.id
  parentId := second.parentId.trans first.parentId
  fields := second.fields.trans first.fields
  objects := second.objects.trans first.objects
  filter := second.filter.trans first.filter
  groupBy := second.groupBy.trans first.groupBy
  groupAliases := second.groupAliases.trans first.groupAliases
  isAggregation := second.isAggregation.trans first.isAggregation
  having := second.having.trans first.having
  orderBy := second.orderBy.trans first.orderBy
  bounds := second.bounds.trans first.bounds

theorem nested (alike : before.Alike after) : after.nested = before.nested := by
  have fields := congrArg (List.filterMap (·.kind.query?)) alike.fields
  have filter := congrArg (List.filterMap Condition.query?) alike.filter
  have having := congrArg (List.filterMap Condition.query?) alike.having
  simp only [List.filterMap_map, Function.comp_def, Field.kind_bare, Field.query?_bare,
    Condition.query?_bare] at fields filter having
  rw [nested_eq, nested_eq, fields, filter, having]

theorem columns (alike : before.Alike after) :
    after.columns.map Field.bare = before.columns.map Field.bare := by
  have ofOrders (statement : Statement Q) :
      ((statement.orderBy.map (·.field)).filter (·.kind.isColumn)).map Field.bare =
        (statement.orderBy.map (·.field.bare)).filter (·.kind.isColumn) := by
    simp [List.filter_map, Function.comp_def]
  simp only [Statement.columns, List.map_append, Field.allColumns_map_bare, ofOrders, alike.fields,
    alike.groupBy, alike.orderBy, Condition.map_operands alike.filter,
    Condition.map_operands alike.having]

theorem objects_ne_nil (alike : before.Alike after) (nonempty : before.objects ≠ []) :
    after.objects ≠ [] := by
  intro empty
  have same := alike.objects
  rw [empty, List.map_nil, eq_comm, List.map_eq_nil_iff] at same
  exact nonempty same

end Alike

end Statement

end ObjectQuery
