import ObjectQuery.Proofs.Query.Column
import ObjectQuery.Proofs.Query.Parsed
import ObjectQuery.Proofs.Resolution.Statement

namespace ObjectQuery

/-!
What stays true of the fields of a statement while names are resolved. Among
other things, fields have no numbers before and none after.
-/

namespace Field

variable {Q : Type}

/--
The property stays true when a field gets a path, which keeps its alias only if
it is a column, and when arguments of a call are replaced.
-/
structure Stays (property : Field Q → Prop) : Prop where
  named : ∀ {field : Field Q} {kind : FieldKind Q} {path : Path} {aliasName : Option String}
    (key : String), property field → kind.path? = some path →
      aliasName = none ∨ field.kind.isColumn = true ∧ aliasName = field.aliasName →
      property { field with kind, aliasName, key }
  call : ∀ {field : Field Q} {arguments : List (Field Q)} (name : String) (aggregated : Bool),
    property field → (∀ argument ∈ arguments, property argument) →
      property { field with kind := .call name arguments, aggregated }
  arguments : ∀ {field : Field Q} {name : String} {arguments : List (Field Q)}, property field →
    field.kind = .call name arguments → ∀ argument ∈ arguments, property argument
  read : ∀ {field column : Field Q}, property field → column ∈ field.columns →
    property { column with notSelected := true }

namespace Stays

variable {property : Field Q → Prop} (stays : Stays property)

include stays

theorem resolving :
    Resolving (fun _ : Scope Q => True) (fun _ => property) fun _ _ => property where
  mention _ _ _ := trivial
  count _ _ _ _ _ _ := trivial
  arguments := stays.arguments
  column holds kind := Field.resolveColumn_yields .whatever (fun _ => holds) fun _ _ _ _ _ =>
    stays.named _ holds rfl (.inr ⟨by rw [kind]; rfl, rfl⟩)
  fieldSet holds _ := Field.resolveFieldSet_yields fun _ => stays.named _ holds rfl (.inl rfl)
  call holds _ inner := Field.resolveCall_yields fun aggregated =>
    stays.call _ aggregated holds (Step.forall_of_forall₂ inner)
  unchanged holds _ _ := holds

end Stays

/-- Where names are resolved, no numbers are given. -/
theorem stays_unnumbered : Stays (Unnumbered : Field Q → Prop) where
  named := by
    intro field kind path aliasName key unnumbered named _
    rw [Unnumbered, marks_eq, List.forall_mem_cons] at unnumbered ⊢
    have nothing : kind.marks = [] := by
      cases kind <;> cases named <;> simp [FieldKind.marks]
    exact ⟨unnumbered.1, by simp [nothing]⟩
  call := by
    intro field arguments name aggregated unnumbered inner
    rw [Unnumbered, marks_eq, List.forall_mem_cons] at unnumbered ⊢
    exact ⟨unnumbered.1, unnumbered_call inner⟩
  arguments := by
    intro field name arguments unnumbered kind
    rw [Unnumbered, marks_eq, List.forall_mem_cons, kind, FieldKind.marks,
      allMarks_eq_flatMap] at unnumbered
    exact fun argument given mark own =>
      unnumbered.2 mark (List.mem_flatMap.2 ⟨argument, given, own⟩)
  read := by
    intro field column unnumbered member
    have own : column.Unnumbered := by
      rw [Unnumbered, marks_of_isColumn (isColumn_of_mem_columns field column member),
        List.forall_mem_singleton]
      exact unnumbered _ (mark_mem_marks field column member)
    exact unnumbered_congr (by rfl) (by rfl) own

/-- Columns without aliases get none. -/
theorem stays_unaliased : Stays (Unaliased : Field Q → Prop) where
  named := by
    rintro field kind path aliasName key unaliased named kept
    cases kind with
    | column path =>
        refine (unaliased_of_isColumn rfl).2 ?_
        rcases kept with rfl | ⟨isColumn, rfl⟩
        · rfl
        · exact (unaliased_of_isColumn isColumn).1 unaliased
    | fieldSet path => exact unaliased_of_columns_eq_nil rfl
    | _ => cases named
  call _ _ _ inner := unaliased_of_arguments rfl inner
  arguments := by
    intro field name arguments unaliased kind argument given
    exact unaliased.arguments argument (by rwa [kind])
  read := by
    intro field column unaliased member
    have isColumn : ({ column with notSelected := true } : Field Q).kind.isColumn = true :=
      isColumn_of_mem_columns field column member
    exact (unaliased_of_isColumn isColumn).2 (unaliased column member)

end Field

namespace Statement

open ObjectQuery.Field (Stays)

variable {Q : Type} {statement : Statement Q} {property : Field Q → Prop}

/-- No field of the statement has a number. -/
def Unnumbered (statement : Statement Q) : Prop :=
  ∀ field ∈ statement.everyField, field.Unnumbered

theorem forall_everyField_iff :
    (∀ field ∈ statement.everyField, property field) ↔
      (∀ field ∈ statement.fields, property field) ∧
        (∀ field ∈ statement.filter.filterMap Condition.operand?, property field) ∧
        (∀ field ∈ statement.groupBy, property field) ∧
        (∀ field ∈ statement.having.filterMap Condition.operand?, property field) ∧
        ∀ order ∈ statement.orderBy, property order.field := by
  simp only [everyField, List.forall_mem_append, List.forall_mem_map, and_assoc]

variable (stays : Stays property)

include stays

theorem forall_selectRead (holds : ∀ field ∈ statement.everyField, property field) :
    ∀ field ∈ statement.selectRead.everyField, property field := by
  obtain ⟨fields, filter, groupBy, having, orderBy⟩ := forall_everyField_iff.1 holds
  refine forall_everyField_iff.2 ⟨?_, filter, groupBy, having, orderBy⟩
  rw [fields_selectRead]
  refine List.forall_mem_append.2 ⟨fields, ?_⟩
  rw [List.forall_mem_map]
  intro column member
  obtain ⟨field, given, own⟩ := exists_everyField (Field.mem_of_mem_firstsOf member)
  exact stays.read (holds field given) own

namespace Course

variable {place : QueryPlace} {primary : Path} {before : Scope Q}

theorem forall_fields (course : Course place primary statement before)
    (holds : ∀ field ∈ statement.fields, property field) :
    ∀ field ∈ course.fields, property field := by
  obtain ⟨held, _⟩ := course.forall₂_fields
    (fun field member => stays.resolving.resolveUnlessNested _ field (holds field member)) trivial
  exact Step.forall_of_forall₂ held

theorem forall_filter (course : Course place primary statement before)
    (holds : ∀ field ∈ statement.filter.filterMap Condition.operand?, property field) :
    ∀ field ∈ course.filter.filterMap Condition.operand?, property field := by
  obtain ⟨held, _⟩ := course.forall₂_filter
    (fun field member => stays.resolving.resolveUnlessNested _ field (holds field member)) trivial
  exact Step.forall_of_forall₂ (Condition.forall₂_operands held)

theorem forall_having (course : Course place primary statement before)
    (holds : ∀ field ∈ statement.having.filterMap Condition.operand?, property field) :
    ∀ field ∈ course.having.filterMap Condition.operand?, property field := by
  obtain ⟨held, _⟩ := course.forall₂_having
    (fun field member => stays.resolving.resolveUnlessNested _ field (holds field member)) trivial
  exact Step.forall_of_forall₂ (Condition.forall₂_operands held)

end Course

theorem resolve_holds (place : QueryPlace) (primary : Path)
    (filtered : Condition.IsFilter statement.filter) (grouped : Condition.IsFilter statement.having)
    (holds : ∀ field ∈ statement.everyField, property field) (before : Scope Q) :
    Step.Meets (statement.resolve place primary) before
      (fun result _ => ∀ field ∈ result.1.everyField, property field)
      CompileError.IsSemantic := by
  obtain ⟨inFields, inFilter, inGroups, inHaving, inOrders⟩ := forall_everyField_iff.1 holds
  refine (resolve_course place primary filtered grouped before).mono ?_
  rintro _ _ ⟨course, rfl, rfl⟩
  have selects := course.forall_fields stays inFields
  have aliases (key : String) (field : Field Q) (found : course.selected.find? key = some field) :
      property field :=
    selects field (course.mem_fields_of_find? found)
  obtain ⟨groups, _⟩ :=
    stays.resolving.resolveAll _ statement.groupBy inGroups trivial course.groups
  obtain ⟨orders, _⟩ := course.forall₂_orderBy
    (fun order member => OrderKey.resolve_yields property
      (fun _ field _ found => aliases _ field found) fun _ =>
        stays.resolving.resolve _ order.field (inOrders order member)) trivial
  exact forall_selectRead stays (forall_everyField_iff.2
    ⟨selects, course.forall_filter stays inFilter, course.forall_groupBy aliases (Step.forall_of_forall₂ groups),
      course.forall_having stays inHaving, Step.forall_of_forall₂ orders⟩)

end Statement

end ObjectQuery
