import ObjectQuery.Proofs.Query.Mention
import ObjectQuery.Proofs.Resolution.Kept
import ObjectQuery.Proofs.Wire.Query

namespace ObjectQuery

/-!
What it takes to write a query, apart into what its text has brought in and what
has been counted since. Names that are resolved and numbers that are given to
fields leave the first as it is.
-/

mutual

def FieldKind.IsLegible : FieldKind Prop → Prop
  | .call _ arguments => Field.AreLegible arguments
  | .subquery legible => legible
  | .literal value => value.IsWritable
  | _ => True

/-- The literals and the queries in the field can be written. -/
def Field.IsLegible : Field Prop → Prop
  | ⟨kind, _, _, _, _, _, _⟩ => kind.IsLegible

def Field.AreLegible : List (Field Prop) → Prop
  | [] => True
  | field :: rest => field.IsLegible ∧ Field.AreLegible rest

end

mutual

def FieldKind.IsCounted : FieldKind Bool → Prop
  | .call _ arguments => Field.AreCounted arguments
  | .subquery counted => counted = true
  | _ => True

/-- The numbers of the field and of those in it are such as 64 bits hold. -/
def Field.IsCounted : Field Bool → Prop
  | ⟨kind, _, _, _, _, columnId, columnIndex⟩ =>
      kind.IsCounted ∧ (∀ id ∈ columnId, id < UInt64.size) ∧
        ∀ index ∈ columnIndex, index < UInt64.size

def Field.AreCounted : List (Field Bool) → Prop
  | [] => True
  | field :: rest => field.IsCounted ∧ Field.AreCounted rest

end

mutual

def FieldKind.decidableCounted : (kind : FieldKind Bool) → Decidable kind.IsCounted
  | .call _ arguments => Field.decidableAreCounted arguments
  | .subquery counted => inferInstanceAs (Decidable (counted = true))
  | .column _ | .fieldSet _ | .literal _ | .parameter _ | .relativeDate _ => .isTrue trivial

def Field.decidableCounted : (field : Field Bool) → Decidable field.IsCounted
  | ⟨kind, _, _, _, _, _, _⟩ =>
      have := kind.decidableCounted
      inferInstanceAs (Decidable (_ ∧ _ ∧ _))

def Field.decidableAreCounted : (fields : List (Field Bool)) → Decidable (Field.AreCounted fields)
  | [] => .isTrue trivial
  | field :: rest =>
      have := field.decidableCounted
      have := Field.decidableAreCounted rest
      inferInstanceAs (Decidable (_ ∧ _))

end

instance : DecidablePred Field.IsCounted :=
  Field.decidableCounted

/-- All numbers of the statement are such as 64 bits hold, and its metadata can be written. -/
@[mk_iff]
structure Statement.IsCounted (statement : Statement Bool) : Prop where
  id : statement.id < UInt64.size
  parentId : ∀ id ∈ statement.parentId, id < UInt64.size
  fields : ∀ field ∈ statement.everyField, field.IsCounted
  residual : ∀ field ∈ statement.residual.filterMap Condition.operand?, field.IsCounted
  viewId : ∀ object ∈ statement.objects, ∀ id ∈ object.viewId, id < UInt64.size
  parentViewId : ∀ object ∈ statement.objects, ∀ id ∈ object.parentViewId, id < UInt64.size
  plans : ∀ object ∈ statement.objects, ∀ counted ∈ object.plan, counted = true
  metadata : ∀ metadata ∈ statement.metadata, metadata.IsWritable

instance : DecidablePred Statement.IsCounted := fun statement =>
  decidable_of_iff (_ ∧ _ ∧ _ ∧ _ ∧ _ ∧ _ ∧ _ ∧ _) (Statement.isCounted_iff statement).symm

namespace Query

/-- All numbers of the query and of the queries in it are such as 64 bits hold. -/
def isCounted (query : Query) : Bool :=
  query.fold fun statement => decide statement.IsCounted

theorem isCounted_mk (statement : Statement Query) :
    isCounted ⟨statement⟩ = true ↔ (statement.map isCounted).IsCounted := by
  rw [isCounted, fold_mk, decide_eq_true_iff]
  rfl

/-- The query can be written where its numbers are such as 64 bits hold. -/
def IsLegible (query : Query) : Prop :=
  query.isCounted = true → query.IsWritable

end Query

namespace Field

variable {Q : Type}

theorem areLegible_iff {fields : List (Field Prop)} :
    AreLegible fields ↔ ∀ field ∈ fields, field.IsLegible := by
  induction fields with
  | nil => simp [AreLegible]
  | cons field rest induction => rw [AreLegible, induction, List.forall_mem_cons]

theorem isLegible_eq (field : Field Prop) : field.IsLegible = field.kind.IsLegible := by
  cases field
  rfl

theorem kind_map (f : P → Q) (field : Field P) : (field.map f).kind = field.kind.map f := by
  cases field
  rfl

/-- The field can be written where the queries in it have the property. -/
def Legible (property : Q → Prop) (field : Field Q) : Prop :=
  (field.map property).IsLegible

variable {property : Q → Prop}

theorem legible_congr {field other : Field Q} (kind : other.kind = field.kind)
    (legible : field.Legible property) : other.Legible property := by
  rw [Legible, isLegible_eq, kind_map] at legible ⊢
  rwa [kind]

theorem legible_of_isColumn {field : Field Q} (column : field.kind.isColumn = true) :
    field.Legible property := by
  obtain ⟨path, kind⟩ := exists_eq_column column
  rw [Legible, isLegible_eq, kind_map, kind]
  trivial

theorem stays_legible : Stays (Legible property : Field Q → Prop) where
  named := by
    intro field kind path aliasName key _ named _
    rw [Legible, isLegible_eq, kind_map]
    cases kind <;> cases named <;> trivial
  call := by
    intro field arguments name aggregated _ inner
    rw [Legible, isLegible_eq, kind_map, FieldKind.map, FieldKind.IsLegible, areLegible_iff,
      mapAll_eq_map, List.forall_mem_map]
    exact inner
  arguments := by
    intro field name arguments legible kind
    rwa [Legible, isLegible_eq, kind_map, kind, FieldKind.map, FieldKind.IsLegible, areLegible_iff,
      mapAll_eq_map, List.forall_mem_map] at legible
  read := by
    intro field column _ member
    have isColumn := isColumn_of_mem_columns field column member
    have own : column.Legible property := legible_of_isColumn isColumn
    exact legible_congr (by rfl) own

mutual

theorem isLegible_bare : (field : Field Q) →
    ((field.bare.map property).IsLegible ↔ (field.map property).IsLegible)
  | ⟨kind, _, _, _, _, _, _⟩ => kindIsLegible_bare kind

theorem kindIsLegible_bare : (kind : FieldKind Q) →
    ((kind.bare.map property).IsLegible ↔ (kind.map property).IsLegible)
  | .call _ arguments => areLegible_bare arguments
  | .column _ | .fieldSet _ | .subquery _ | .literal _ | .parameter _ | .relativeDate _ => .rfl

theorem areLegible_bare : (fields : List (Field Q)) →
    (AreLegible (mapAll property (allBare fields)) ↔ AreLegible (mapAll property fields))
  | [] => .rfl
  | field :: rest => and_congr (isLegible_bare field) (areLegible_bare rest)

end

theorem legible_of_bare {before after : List (Field Q)} (same : after.map bare = before.map bare)
    (legible : ∀ field ∈ before, field.Legible property) :
    ∀ field ∈ after, field.Legible property := by
  intro field member
  obtain ⟨other, given, alike⟩ := exists_mem_of_map_eq same member
  rw [Legible, ← isLegible_bare, ← alike, isLegible_bare]
  exact legible other given

mutual

/-- A field that is legible can be written where it is counted. -/
theorem isWritable_of_legible : (field : Field Query) → field.Legible Query.IsLegible →
    (field.map Query.isCounted).IsCounted → (field.map Query.IsWritable).IsWritable
  | ⟨kind, _, _, _, _, _, _⟩, legible, counted =>
      ⟨kindIsWritable_of_legible kind legible counted.1, counted.2⟩

theorem kindIsWritable_of_legible : (kind : FieldKind Query) →
    (kind.map Query.IsLegible).IsLegible → (kind.map Query.isCounted).IsCounted →
    (kind.map Query.IsWritable).IsWritable
  | .call _ arguments, legible, counted => areWritable_of_legible arguments legible counted
  | .subquery _, legible, counted => legible counted
  | .literal _, legible, _ => legible
  | .column _, _, _ | .fieldSet _, _, _ | .parameter _, _, _ | .relativeDate _, _, _ => trivial

theorem areWritable_of_legible : (fields : List (Field Query)) →
    AreLegible (mapAll Query.IsLegible fields) → AreCounted (mapAll Query.isCounted fields) →
    AreWritable (mapAll Query.IsWritable fields)
  | [], _, _ => trivial
  | field :: rest, legible, counted =>
      ⟨isWritable_of_legible field legible.1 counted.1,
        areWritable_of_legible rest legible.2 counted.2⟩

end

mutual

theorem legible_of_isWritable {weaker : Q → Prop} (weaken : ∀ query, property query → weaker query) :
    (field : Field Q) → (field.map property).IsWritable → field.Legible weaker
  | ⟨kind, _, _, _, _, _, _⟩, writable => kindIsLegible_of_isWritable weaken kind writable.1

theorem kindIsLegible_of_isWritable {weaker : Q → Prop}
    (weaken : ∀ query, property query → weaker query) :
    (kind : FieldKind Q) → (kind.map property).IsWritable → (kind.map weaker).IsLegible
  | .call _ arguments, writable => areLegible_of_areWritable weaken arguments writable
  | .subquery query, writable => weaken query writable
  | .literal _, writable => writable
  | .column _, _ | .fieldSet _, _ | .parameter _, _ | .relativeDate _, _ => trivial

theorem areLegible_of_areWritable {weaker : Q → Prop}
    (weaken : ∀ query, property query → weaker query) :
    (fields : List (Field Q)) → AreWritable (mapAll property fields) →
      AreLegible (mapAll weaker fields)
  | [], _ => trivial
  | field :: rest, writable =>
      ⟨legible_of_isWritable weaken field writable.1,
        areLegible_of_areWritable weaken rest writable.2⟩

end

end Field

namespace Statement

/-- The statement of an object can be written, which holds no other queries of objects. -/
structure LegiblePlan (plan : Statement Query) : Prop where
  fields : ∀ field ∈ plan.everyField, field.Legible Query.IsLegible
  residual : plan.residual = []
  objects : ∀ object ∈ plan.objects, object.plan = none

/-- The statement can be written where its numbers are such as 64 bits hold. -/
structure Legible (statement : Statement Query) : Prop where
  fields : ∀ field ∈ statement.everyField, field.Legible Query.IsLegible
  residual : ∀ field ∈ statement.residual.filterMap Condition.operand?,
    field.Legible Query.IsLegible
  plans : ∀ object ∈ statement.objects, ∀ plan, object.plan = some plan → plan.body.LegiblePlan

theorem isLegible_of {statement : Statement Query}
    (fields : ∀ field ∈ statement.everyField, field.Legible Query.IsLegible)
    (residual : ∀ field ∈ statement.residual.filterMap Condition.operand?,
      field.Legible Query.IsLegible)
    (plans : ∀ object ∈ statement.objects, ∀ plan, object.plan = some plan → plan.IsLegible) :
    Query.IsLegible ⟨statement⟩ := by
  intro counted
  rw [Query.isCounted_mk] at counted
  rw [Query.isWritable_mk]
  have written : ∀ field ∈ statement.everyField, (field.map Query.IsWritable).IsWritable := by
    have counts := counted.fields
    rw [everyField_map, List.forall_mem_map] at counts
    exact fun field member =>
      field.isWritable_of_legible (fields field member) (counts field member)
  have conditions {list : List (Condition (Field Query))}
      (written : ∀ field ∈ list.filterMap Condition.operand?,
        (field.map Query.IsWritable).IsWritable) :
      ∀ condition ∈ list.map (Condition.map (Field.map Query.IsWritable)),
        condition.IsWritable := by
    rw [List.forall_mem_map]
    intro condition member
    cases condition with
    | operand field => exact written field (List.mem_filterMap.2 ⟨_, member, rfl⟩)
    | noop | unknown | operator op => trivial
  obtain ⟨inFields, inFilter, inGroups, inHaving, inOrders⟩ := forall_everyField_iff.1 written
  have left : ∀ field ∈ statement.residual.filterMap Condition.operand?,
      (field.map Query.IsWritable).IsWritable := by
    have counts := counted.residual
    simp only [map, List.filterMap_map, Function.comp_def, Condition.operand?_map,
      ← List.map_filterMap, List.forall_mem_map] at counts
    exact fun field member =>
      field.isWritable_of_legible (residual field member) (counts field member)
  have objects : ∀ object ∈ statement.objects, (object.map Query.IsWritable).IsWritable := by
    intro object member
    have mapped : object.map Query.isCounted ∈ (statement.map Query.isCounted).objects :=
      List.mem_map_of_mem member
    have viewId : ∀ id ∈ object.viewId, id < UInt64.size := counted.viewId _ mapped
    have parentViewId : ∀ id ∈ object.parentViewId, id < UInt64.size :=
      counted.parentViewId _ mapped
    refine ⟨viewId, parentViewId, fun writable given => ?_⟩
    obtain ⟨plan, planned, rfl⟩ := Option.map_eq_some_iff.1 given
    exact plans object member plan planned
      (counted.plans _ mapped _ (Option.mem_map_of_mem Query.isCounted planned))
  exact {
    id := counted.id
    parentId := counted.parentId
    fields := List.forall_mem_map.2 inFields
    objects := List.forall_mem_map.2 objects
    filter := conditions inFilter
    groupBy := List.forall_mem_map.2 inGroups
    having := conditions inHaving
    orderBy := List.forall_mem_map.2 inOrders
    residual := conditions left
    metadata := counted.metadata }

theorem LegiblePlan.isLegible {plan : Query} (legible : plan.body.LegiblePlan) :
    plan.IsLegible := by
  obtain ⟨body⟩ := plan
  have residual : body.residual = [] := legible.residual
  refine isLegible_of legible.fields (by simp [residual]) fun object member other given => ?_
  rw [legible.objects object member] at given
  cases given

theorem Legible.isLegible {statement : Statement Query} (legible : statement.Legible) :
    Query.IsLegible ⟨statement⟩ :=
  isLegible_of legible.fields legible.residual fun object member plan given =>
    LegiblePlan.isLegible (legible.plans object member plan given)

end Statement

end ObjectQuery
