import ObjectQuery.Proofs.Query.Spelling

namespace ObjectQuery

/-!
Relations between queries that differ in spellings at most: equality, where each
name has one spelling, and `Query.Respelled`.
-/

section Equality

variable {Q : Type} {spelling : Respelling} {queries : Q → Q → Prop}

mutual

theorem Literal.Respelled.eq (exact : spelling.IsExact) : (value other : Literal) →
    value.Respelled spelling other → value = other
  | _, _, .same _ => rfl
  | .list items, _, .list same => by
      rw [ListItem.Respelled.allEq exact items _ same]

theorem ListItem.Respelled.eq (exact : spelling.IsExact) : (item other : ListItem) →
    item.Respelled spelling other → item = other
  | .literal value, _, .literal same => by
      rw [Literal.Respelled.eq exact value _ same]
  | .parameter _, _, .parameter names => by
      rw [exact names]
  | .relativeDate _, _, .relativeDate _ => rfl

theorem ListItem.Respelled.allEq (exact : spelling.IsExact) : (items others : List ListItem) →
    List.Forall₂ (ListItem.Respelled spelling) items others → items = others
  | [], _, .nil => rfl
  | item :: rest, _, .cons first later => by
      rw [ListItem.Respelled.eq exact item _ first, ListItem.Respelled.allEq exact rest _ later]

end

theorem Path.Respelled.eq {path other : Path} (exact : spelling.IsExact)
    (same : path.Respelled spelling other) : path = other :=
  List.Forall₂.eq same fun _ _ names => exact names

mutual

theorem FieldKind.Respelled.eq (exact : spelling.IsExact)
    (equal : ∀ query other, queries query other → query = other) : (kind other : FieldKind Q) →
    kind.Respelled spelling queries other → kind = other
  | .column _, _, .column paths => by rw [paths.eq exact]
  | .fieldSet _, _, .fieldSet paths => by rw [paths.eq exact]
  | .call _ arguments, _, .call names same => by
      rw [exact names, Field.Respelled.allEq exact equal arguments _ same]
  | .subquery _, _, .subquery same => by rw [equal _ _ same]
  | .literal value, _, .literal values => by rw [Literal.Respelled.eq exact value _ values]
  | .parameter _, _, .parameter names => by rw [exact names]
  | .relativeDate _, _, .relativeDate _ => rfl

theorem Field.Respelled.eq (exact : spelling.IsExact)
    (equal : ∀ query other, queries query other → query = other) : (field other : Field Q) →
    field.Respelled spelling queries other → field = other
  | ⟨kind, aliasName, notSelected, aggregated, key, columnId, columnIndex⟩,
    ⟨otherKind, otherAlias, otherSelected, otherAggregated, otherKey, otherId, otherIndex⟩, same => by
      obtain rfl : kind = otherKind := FieldKind.Respelled.eq exact equal kind _ same.kind
      obtain rfl : aliasName = otherAlias := same.aliasName.eq fun _ _ names => exact names
      obtain rfl : notSelected = otherSelected := same.notSelected_eq
      obtain rfl : aggregated = otherAggregated := same.aggregated_eq
      obtain rfl : key = otherKey := same.key_eq
      obtain rfl : columnId = otherId := same.columnId_eq
      obtain rfl : columnIndex = otherIndex := same.columnIndex_eq
      rfl

theorem Field.Respelled.allEq (exact : spelling.IsExact)
    (equal : ∀ query other, queries query other → query = other) : (fields others : List (Field Q)) →
    List.Forall₂ (Field.Respelled spelling queries) fields others → fields = others
  | [], _, .nil => rfl
  | field :: rest, _, .cons first later => by
      rw [Field.Respelled.eq exact equal field _ first,
        Field.Respelled.allEq exact equal rest _ later]

end

theorem RowBound.Respelled.eq {bound other : RowBound} (exact : spelling.IsExact)
    (same : bound.Respelled spelling other) : bound = other := by
  cases same with
  | count => rfl
  | parameter names => rw [exact names]

theorem RowBounds.Respelled.eq {bounds other : RowBounds} (exact : spelling.IsExact)
    (same : bounds.Respelled spelling other) : bounds = other := by
  cases bounds
  cases other
  rw [RowBounds.mk.injEq]
  exact ⟨same.offset.eq fun _ _ offsets => offsets.eq exact,
    same.limit.eq fun _ _ limits => limits.eq exact⟩

theorem SourceObject.Respelled.eq {object other : SourceObject Q} (exact : spelling.IsExact)
    (equal : ∀ query other, queries query other → query = other)
    (same : object.Respelled spelling queries other) : object = other := by
  cases object
  cases other
  rw [SourceObject.mk.injEq]
  exact ⟨same.path.eq exact, same.aliasName.eq fun _ _ names => exact names, same.key,
    same.hasConditions, same.innerJoin, same.viewId, same.parentViewId, same.plan.eq equal⟩

theorem OrderKey.Respelled.eq {order other : OrderKey Q} (exact : spelling.IsExact)
    (equal : ∀ query other, queries query other → query = other)
    (same : order.Respelled spelling queries other) : order = other := by
  cases order
  cases other
  rw [OrderKey.mk.injEq]
  exact ⟨Field.Respelled.eq exact equal _ _ same.field, same.descending, same.nullsLast⟩

theorem Condition.Related.eq {α : Type} {values : α → α → Prop} {entry other : Condition α}
    (same : entry.Related values other)
    (equal : ∀ value other, values value other → value = other) : entry = other := by
  cases same with
  | operand same => rw [equal _ _ same]
  | _ => rfl

theorem Statement.Respelled.eq {statement other : Statement Q} (exact : spelling.IsExact)
    (equal : ∀ query other, queries query other → query = other)
    (same : statement.Respelled spelling queries other) : statement = other := by
  have field : ∀ field other : Field Q, field.Respelled spelling queries other → field = other :=
    Field.Respelled.eq exact equal
  have conditions {conditions others : List (Condition (Field Q))}
      (same : Condition.Respelled spelling queries conditions others) : conditions = others :=
    List.Forall₂.eq same fun _ _ entries => entries.eq field
  cases statement
  cases other
  rw [Statement.mk.injEq]
  exact ⟨same.id, same.parentId, same.fields.eq field,
    same.objects.eq fun _ _ objects => objects.eq exact equal, conditions same.filter,
    same.groupBy.eq field, conditions same.having,
    same.orderBy.eq fun _ _ orders => orders.eq exact equal, same.bounds.eq exact, same.access,
    same.isAggregation, same.isCorrelated, conditions same.residual, same.metadata⟩

end Equality

section Reflexivity

variable {Q : Type} (spelling : Respelling) {queries : Q → Q → Prop}

mutual

theorem FieldKind.Respelled.refl (each : ∀ query, queries query query) : (kind : FieldKind Q) →
    kind.Respelled spelling queries kind
  | .column path => .column (.refl spelling path)
  | .fieldSet path => .fieldSet (.refl spelling path)
  | .call name arguments => .call (spelling.refl name) (Field.Respelled.allRefl each arguments)
  | .subquery query => .subquery (each query)
  | .literal value => .literal (.same value)
  | .parameter name => .parameter (spelling.refl name)
  | .relativeDate date => .relativeDate date

theorem Field.Respelled.refl (each : ∀ query, queries query query) : (field : Field Q) →
    field.Respelled spelling queries field
  | ⟨kind, aliasName, _, _, _, _, _⟩ =>
      .intro (FieldKind.Respelled.refl each kind) (.refl spelling.refl aliasName) rfl rfl rfl rfl
        rfl

theorem Field.Respelled.allRefl (each : ∀ query, queries query query) : (fields : List (Field Q)) →
    List.Forall₂ (Field.Respelled spelling queries) fields fields
  | [] => .nil
  | field :: rest => .cons (Field.Respelled.refl each field) (Field.Respelled.allRefl each rest)

end

theorem RowBound.Respelled.refl : (bound : RowBound) → bound.Respelled spelling bound
  | .count value => .count value
  | .parameter name => .parameter (spelling.refl name)

theorem Condition.Related.refl {α : Type} {values : α → α → Prop}
    (each : ∀ value, values value value) : (entry : Condition α) → entry.Related values entry
  | .noop => .noop
  | .unknown => .unknown
  | .operand value => .operand (each value)
  | .operator op => .operator op

theorem Statement.Respelled.refl (each : ∀ query, queries query query) (statement : Statement Q) :
    statement.Respelled spelling queries statement where
  id := rfl
  parentId := rfl
  fields := Field.Respelled.allRefl spelling each _
  objects := List.forall₂_same.2 fun _ _ =>
    ⟨.refl spelling _, .refl spelling.refl _, rfl, rfl, rfl, rfl, rfl, .refl each _⟩
  filter := List.forall₂_same.2 fun _ _ => .refl (Field.Respelled.refl spelling each) _
  groupBy := Field.Respelled.allRefl spelling each _
  having := List.forall₂_same.2 fun _ _ => .refl (Field.Respelled.refl spelling each) _
  orderBy := List.forall₂_same.2 fun order _ =>
    ⟨Field.Respelled.refl spelling each order.field, rfl, rfl⟩
  bounds := ⟨.refl (RowBound.Respelled.refl spelling) _, .refl (RowBound.Respelled.refl spelling) _⟩
  access := rfl
  isAggregation := rfl
  isCorrelated := rfl
  residual := List.forall₂_same.2 fun _ _ => .refl (Field.Respelled.refl spelling each) _
  metadata := rfl

end Reflexivity

/--
A relation that holds of two queries where their statements differ in spellings
at most, and the queries nested in them are related in turn.
-/
structure Likeness (spelling : Respelling) (queries : Query → Query → Prop) : Prop where
  body {query other : Query} (same : queries query other) :
    query.body.Respelled spelling queries other.body
  of_body {statement other : Statement Query} (same : statement.Respelled spelling queries other) :
    queries ⟨statement⟩ ⟨other⟩
  eq (exact : spelling.IsExact) (query other : Query) (same : queries query other) : query = other

theorem likeness_eq {spelling : Respelling} (exact : spelling.IsExact) : Likeness spelling Eq where
  body same := same ▸ .refl spelling (fun _ => rfl) _
  of_body same := congrArg Query.mk (same.eq exact fun _ _ => id)
  eq _ _ _ := id

theorem Condition.Related.query? {Q : Type} {spelling : Respelling} {queries : Q → Q → Prop}
    {entry other : Condition (Field Q)}
    (same : entry.Related (Field.Respelled spelling queries) other) :
    Option.Rel queries entry.query? other.query? := by
  cases same with
  | operand same => exact same.kind.query?
  | _ => exact .none

theorem Statement.Respelled.nested {Q : Type} {spelling : Respelling} {queries : Q → Q → Prop}
    {statement other : Statement Q} (same : statement.Respelled spelling queries other) :
    List.Forall₂ queries statement.nested other.nested := by
  rw [nested_eq, nested_eq]
  exact List.rel_append (List.rel_append
    (same.fields.filterMap fun _ _ fields => fields.kind.query?)
    (same.filter.filterMap fun _ _ entries => entries.query?))
    (same.having.filterMap fun _ _ entries => entries.query?)

/-- Queries that are alike are nested equally deep. -/
theorem Likeness.height_eq {spelling : Respelling} {queries : Query → Query → Prop}
    (likeness : Likeness spelling queries) {query other : Query} (same : queries query other) :
    query.height = other.height := by
  induction height : query.height using Nat.strongRecOn generalizing query other with
  | ind bound induction =>
      subst height
      have nested := (likeness.body same).nested
      have heights : query.body.nested.map Query.height = other.body.nested.map Query.height :=
        nested.map_eq_of_mem fun inner member also alike =>
          induction inner.height (Query.height_lt member) alike rfl
      obtain ⟨statement⟩ := query
      obtain ⟨statementToo⟩ := other
      rw [Query.height_mk, Query.height_mk, heights]

/-- Queries that differ in spellings at most, those nested in them included. -/
inductive Query.Respelled (spelling : Respelling) : Query → Query → Prop where
  | intro {statement other : Statement Query} (queries : Query → Query → Prop)
      (nested : ∀ query also, queries query also → Query.Respelled spelling query also)
      (body : statement.Respelled spelling queries other) :
      Query.Respelled spelling ⟨statement⟩ ⟨other⟩

theorem likeness_respelled (spelling : Respelling) : Likeness spelling (Query.Respelled spelling) where
  body same := by
    cases same with
    | intro queries nested body => exact body.mono nested
  of_body same := .intro _ (fun _ _ nested => nested) same
  eq exact query other same := by
    induction same with
    | intro queries _ body induction => rw [body.eq exact induction]

end ObjectQuery
