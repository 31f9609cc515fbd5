import ObjectQuery.Query.Statement

namespace ObjectQuery

/-! Folding a query is mapping over the queries nested in its statement. -/

namespace Query

variable {β : Type} (f : Statement β → β)

mutual

theorem foldKind_eq_map : (kind : FieldKind Query) → foldKind f kind = kind.map (fold f)
  | .column _ | .fieldSet _ | .subquery _ | .literal _ | .parameter _ | .relativeDate _ => by
      simp [foldKind, FieldKind.map]
  | .call _ arguments => by
      simp [foldKind, FieldKind.map, foldFields_eq_map arguments]

theorem foldField_eq_map : (field : Field Query) → foldField f field = field.map (fold f)
  | ⟨kind, _, _, _, _, _, _⟩ => by
      simp [foldField, Field.map, foldKind_eq_map kind]

theorem foldFields_eq_map : (fields : List (Field Query)) →
    foldFields f fields = fields.map (Field.map (fold f))
  | [] => rfl
  | field :: rest => by
      simp [foldFields, foldField_eq_map field, foldFields_eq_map rest]

end

theorem foldObjects_eq_map (objects : List (SourceObject Query)) :
    foldObjects f objects = objects.map (SourceObject.map (fold f)) := by
  induction objects with
  | nil => rfl
  | cons object rest induction =>
      obtain ⟨path, aliasName, key, hasConditions, innerJoin, viewId, parentViewId, plan⟩ :=
        object
      cases plan <;> simp [foldObjects, foldObject, foldPlan, SourceObject.map, induction]

theorem foldConditions_eq_map (conditions : List (Condition (Field Query))) :
    foldConditions f conditions = conditions.map (Condition.map (Field.map (fold f))) := by
  induction conditions with
  | nil => rfl
  | cons condition rest induction =>
      cases condition <;>
        simp [foldConditions, foldCondition, Condition.map, foldField_eq_map, induction]

theorem foldOrderKeys_eq_map (orders : List (OrderKey Query)) :
    foldOrderKeys f orders = orders.map (OrderKey.map (fold f)) := by
  induction orders with
  | nil => rfl
  | cons order rest induction =>
      cases order
      simp [foldOrderKeys, foldOrderKey, OrderKey.map, foldField_eq_map, induction]

/-- A fold replaces the nested queries before the statement around them. -/
theorem fold_mk (statement : Statement Query) :
    fold f ⟨statement⟩ = f (statement.map (fold f)) := by
  cases statement
  simp [fold, foldStatement, Statement.map, foldFields_eq_map, foldObjects_eq_map,
    foldConditions_eq_map, foldOrderKeys_eq_map]

end Query

end ObjectQuery
