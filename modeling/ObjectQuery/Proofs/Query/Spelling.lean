import ObjectQuery.Plan.Share
import ObjectQuery.Proofs.Alignment
import ObjectQuery.Proofs.Condition.Related
import ObjectQuery.Proofs.Query.Count
import ObjectQuery.Proofs.Query.Nested

namespace ObjectQuery

/-!
Queries that differ in the spellings of their names at most: the segments of
paths, aliases, and the names of functions and parameters. All else about them
is the same.
-/

/-- Which spellings count as one name: texts that are equal but for letter case. -/
structure Respelling where
  allows : String → String → Prop
  refl (name : String) : allows name name
  lowerText_eq {name other : String} (same : allows name other) : lowerText name = lowerText other

namespace Respelling

/-- Each name has one spelling. -/
def exact : Respelling := ⟨Eq, fun _ => rfl, congrArg lowerText⟩

/-- The letter case of names is free. -/
def anyCase : Respelling := ⟨fun name other => lowerText name = lowerText other, fun _ => rfl, id⟩

/-- Each name has one spelling. -/
def IsExact (spelling : Respelling) : Prop :=
  ∀ ⦃name other⦄, spelling.allows name other → name = other

theorem isExact_exact : exact.IsExact := fun _ _ same => same

end Respelling

variable {Q : Type} {spelling : Respelling} {queries : Q → Q → Prop}

/-- Paths with the same names one by one. -/
abbrev Path.Respelled (spelling : Respelling) (path other : Path) : Prop :=
  List.Forall₂ spelling.allows path other

namespace Path.Respelled

variable {path other : Path}

theorem refl (spelling : Respelling) (path : Path) : path.Respelled spelling path :=
  List.forall₂_same.2 fun _ _ => spelling.refl _

theorem lower (same : path.Respelled spelling other) : path.map lowerText = other.map lowerText :=
  same.map_eq fun _ _ => spelling.lowerText_eq

theorem key_eq (same : path.Respelled spelling other) : path.key = other.key :=
  congrArg Path.render same.lower

theorem leadingKey_eq (same : path.Respelled spelling other) (length : Nat) :
    path.leadingKey length = other.leadingKey length := by
  have leading : Path.Respelled spelling (path.take length) (other.take length) :=
    List.forall₂_take length same
  exact leading.key_eq

theorem startsWith_eq (same : path.Respelled spelling other) {beginning also : Path}
    (begins : beginning.Respelled spelling also) :
    path.startsWith beginning = other.startsWith also := by
  rw [Bool.eq_iff_iff, Path.startsWith_iff, Path.startsWith_iff, same.lower, begins.lower]

theorem same_eq (same : path.Respelled spelling other) {beginning also : Path}
    (begins : beginning.Respelled spelling also) : path.same beginning = other.same also := by
  rw [Path.same, Path.same, same.startsWith_eq begins, same.length_eq, begins.length_eq]

end Path.Respelled

mutual

/-- Literals that differ in the spellings of parameters in value lists at most. -/
inductive Literal.Respelled (spelling : Respelling) : Literal → Literal → Prop where
  | same (value : Literal) : Literal.Respelled spelling value value
  | list {items others : List ListItem}
      (entries : List.Forall₂ (ListItem.Respelled spelling) items others) :
      Literal.Respelled spelling (.list items) (.list others)

inductive ListItem.Respelled (spelling : Respelling) : ListItem → ListItem → Prop where
  | literal {value other : Literal} (values : Literal.Respelled spelling value other) :
      ListItem.Respelled spelling (.literal value) (.literal other)
  | parameter {name other : String} (names : spelling.allows name other) :
      ListItem.Respelled spelling (.parameter name) (.parameter other)
  | relativeDate (date : RelativeDate) : ListItem.Respelled spelling (.relativeDate date) (.relativeDate date)

end

mutual

/-- Kinds that differ in spellings at most, besides the queries in them. -/
inductive FieldKind.Respelled (spelling : Respelling) (queries : Q → Q → Prop) :
    FieldKind Q → FieldKind Q → Prop where
  | column {path other : Path} (paths : path.Respelled spelling other) :
      FieldKind.Respelled spelling queries (.column path) (.column other)
  | fieldSet {path other : Path} (paths : path.Respelled spelling other) :
      FieldKind.Respelled spelling queries (.fieldSet path) (.fieldSet other)
  | call {name other : String} {arguments others : List (Field Q)}
      (names : spelling.allows name other)
      (same : List.Forall₂ (Field.Respelled spelling queries) arguments others) :
      FieldKind.Respelled spelling queries (.call name arguments) (.call other others)
  | subquery {query other : Q} (same : queries query other) :
      FieldKind.Respelled spelling queries (.subquery query) (.subquery other)
  | literal {value other : Literal} (values : value.Respelled spelling other) :
      FieldKind.Respelled spelling queries (.literal value) (.literal other)
  | parameter {name other : String} (names : spelling.allows name other) :
      FieldKind.Respelled spelling queries (.parameter name) (.parameter other)
  | relativeDate (date : RelativeDate) :
      FieldKind.Respelled spelling queries (.relativeDate date) (.relativeDate date)

/-- Fields that differ in spellings at most, besides the queries in them. -/
inductive Field.Respelled (spelling : Respelling) (queries : Q → Q → Prop) :
    Field Q → Field Q → Prop where
  | intro {field other : Field Q}
      (kind : FieldKind.Respelled spelling queries field.kind other.kind)
      (aliasName : Option.Rel spelling.allows field.aliasName other.aliasName)
      (notSelected : field.notSelected = other.notSelected)
      (aggregated : field.aggregated = other.aggregated) (key : field.key = other.key)
      (columnId : field.columnId = other.columnId)
      (columnIndex : field.columnIndex = other.columnIndex) :
      Field.Respelled spelling queries field other

end

namespace FieldKind.Respelled

variable {kind other : FieldKind Q}

theorem path? (same : kind.Respelled spelling queries other) :
    Option.Rel (Path.Respelled spelling) kind.path? other.path? := by
  cases same with
  | column paths => exact .some paths
  | fieldSet paths => exact .some paths
  | _ => exact .none

theorem query? (same : kind.Respelled spelling queries other) :
    Option.Rel queries kind.query? other.query? := by
  cases same with
  | subquery same => exact .some same
  | _ => exact .none

theorem isColumn_eq (same : kind.Respelled spelling queries other) :
    kind.isColumn = other.isColumn := by
  cases same <;> rfl

theorem isCall_eq (same : kind.Respelled spelling queries other) : kind.isCall = other.isCall := by
  cases same <;> rfl

theorem isSubquery_eq (same : kind.Respelled spelling queries other) :
    kind.isSubquery = other.isSubquery := by
  cases same <;> rfl

end FieldKind.Respelled

namespace Field.Respelled

variable {field other : Field Q}

theorem kind (same : field.Respelled spelling queries other) :
    field.kind.Respelled spelling queries other.kind := by
  cases same
  assumption

theorem aliasName (same : field.Respelled spelling queries other) :
    Option.Rel spelling.allows field.aliasName other.aliasName := by
  cases same
  assumption

theorem notSelected_eq (same : field.Respelled spelling queries other) :
    field.notSelected = other.notSelected := by
  cases same
  assumption

theorem aggregated_eq (same : field.Respelled spelling queries other) :
    field.aggregated = other.aggregated := by
  cases same
  assumption

theorem key_eq (same : field.Respelled spelling queries other) : field.key = other.key := by
  cases same
  assumption

theorem columnId_eq (same : field.Respelled spelling queries other) :
    field.columnId = other.columnId := by
  cases same
  assumption

theorem columnIndex_eq (same : field.Respelled spelling queries other) :
    field.columnIndex = other.columnIndex := by
  cases same
  assumption

theorem withKind (same : field.Respelled spelling queries other) {kind also : FieldKind Q}
    (kinds : kind.Respelled spelling queries also) :
    ({ field with kind } : Field Q).Respelled spelling queries { other with kind := also } :=
  .intro kinds same.aliasName same.notSelected_eq same.aggregated_eq same.key_eq same.columnId_eq
    same.columnIndex_eq

theorem withColumnIndex (same : field.Respelled spelling queries other)
    (columnIndex : Option Nat) :
    ({ field with columnIndex } : Field Q).Respelled spelling queries { other with columnIndex } :=
  .intro same.kind same.aliasName same.notSelected_eq same.aggregated_eq same.key_eq
    same.columnId_eq rfl

theorem objectPath? (same : field.Respelled spelling queries other) :
    Option.Rel (Path.Respelled spelling) field.objectPath? other.objectPath? :=
  same.kind.path?.map fun _ _ paths => paths.dropLast

theorem isOf_eq (same : field.Respelled spelling queries other) {path also : Path}
    (paths : path.Respelled spelling also) :
    field.objectPath?.any (·.same path) = other.objectPath?.any (·.same also) :=
  same.objectPath?.any fun _ _ objects => objects.same_eq paths

theorem belongsTo_eq (same : field.Respelled spelling queries other) {path also : Path}
    (paths : path.Respelled spelling also) : field.belongsTo path = other.belongsTo also := by
  rw [Field.belongsTo, Field.belongsTo, same.kind.isColumn_eq, same.isOf_eq paths]

theorem isReadBy_eq (same : field.Respelled spelling queries other) {path also : Path}
    (paths : path.Respelled spelling also) : field.isReadBy path = other.isReadBy also := by
  have belongs := same.belongsTo_eq paths
  have kinds := same.kind
  unfold Field.isReadBy
  generalize field.kind = kind at kinds ⊢
  generalize other.kind = alsoKind at kinds ⊢
  cases kinds with
  | column => exact belongs
  | _ => rfl

end Field.Respelled

namespace Grouping

theorem isCount_eq {name other : String} (same : spelling.allows name other) :
    isCount name = isCount other := by
  rw [← isCount_lowerText, spelling.lowerText_eq same, isCount_lowerText]

mutual

theorem counts_eq : (field other : Field Q) → field.Respelled spelling queries other →
    counts field = counts other
  | ⟨kind, _, _, _, _, _, _⟩, ⟨alsoKind, _, _, _, _, _, _⟩, same => by
      unfold counts
      exact kindCounts_eq kind alsoKind same.kind

theorem kindCounts_eq : (kind other : FieldKind Q) → kind.Respelled spelling queries other →
    kindCounts kind = kindCounts other
  | .call name arguments, _, .call names same => by
      unfold kindCounts
      rw [isCount_eq names, anyCounts_eq arguments _ same]
  | .column _, _, .column _ | .fieldSet _, _, .fieldSet _ | .subquery _, _, .subquery _
  | .literal _, _, .literal _ | .parameter _, _, .parameter _
  | .relativeDate _, _, .relativeDate _ => rfl

theorem anyCounts_eq : (fields others : List (Field Q)) →
    List.Forall₂ (Field.Respelled spelling queries) fields others →
    anyCounts fields = anyCounts others
  | [], _, .nil => rfl
  | field :: rest, _, .cons first later => by
      unfold anyCounts
      rw [counts_eq field _ first, anyCounts_eq rest _ later]

end

theorem takesColumns_eq {arguments others : List (Field Q)}
    (same : List.Forall₂ (Field.Respelled spelling queries) arguments others) :
    takesColumns arguments = takesColumns others := by
  unfold takesColumns
  rw [same.any fun _ _ alike => alike.kind.isColumn_eq, same.any fun _ _ alike =>
    alike.kind.isCall_eq]

theorem isKey_eq (keys : SortedSet String) {primary also : Path}
    (paths : primary.Respelled spelling also) {field other : Field Q}
    (same : field.Respelled spelling queries other) :
    isKey keys primary field = isKey keys also other := by
  unfold isKey
  rw [same.key_eq, same.aliasName.any fun aliasName alsoAlias names => ?_]
  have named : Path.Respelled spelling (primary ++ [aliasName]) (also ++ [alsoAlias]) :=
    List.rel_append paths (.cons names .nil)
  rw [named.key_eq]

end Grouping

/-- Objects that differ in spellings at most, besides the queries that fetch their rows. -/
structure SourceObject.Respelled (spelling : Respelling) (queries : Q → Q → Prop)
    (object other : SourceObject Q) : Prop where
  path : object.path.Respelled spelling other.path
  aliasName : Option.Rel spelling.allows object.aliasName other.aliasName
  key : object.key = other.key
  hasConditions : object.hasConditions = other.hasConditions
  innerJoin : object.innerJoin = other.innerJoin
  viewId : object.viewId = other.viewId
  parentViewId : object.parentViewId = other.parentViewId
  plan : Option.Rel queries object.plan other.plan

structure OrderKey.Respelled (spelling : Respelling) (queries : Q → Q → Prop)
    (order other : OrderKey Q) : Prop where
  field : order.field.Respelled spelling queries other.field
  descending : order.descending = other.descending
  nullsLast : order.nullsLast = other.nullsLast

inductive RowBound.Respelled (spelling : Respelling) : RowBound → RowBound → Prop where
  | count (value : Int64) : RowBound.Respelled spelling (.count value) (.count value)
  | parameter {name other : String} (names : spelling.allows name other) :
      RowBound.Respelled spelling (.parameter name) (.parameter other)

structure RowBounds.Respelled (spelling : Respelling) (bounds other : RowBounds) : Prop where
  offset : Option.Rel (RowBound.Respelled spelling) bounds.offset other.offset
  limit : Option.Rel (RowBound.Respelled spelling) bounds.limit other.limit

/-- Conditions that differ in spellings at most, besides the queries in them. -/
abbrev Condition.Respelled (spelling : Respelling) (queries : Q → Q → Prop)
    (conditions others : List (Condition (Field Q))) : Prop :=
  List.Forall₂ (Condition.Related (Field.Respelled spelling queries)) conditions others

/-- Statements that differ in spellings at most, besides the queries nested in them. -/
structure Statement.Respelled (spelling : Respelling) (queries : Q → Q → Prop)
    (statement other : Statement Q) : Prop where
  id : statement.id = other.id
  parentId : statement.parentId = other.parentId
  fields : List.Forall₂ (Field.Respelled spelling queries) statement.fields other.fields
  objects : List.Forall₂ (SourceObject.Respelled spelling queries) statement.objects other.objects
  filter : Condition.Respelled spelling queries statement.filter other.filter
  groupBy : List.Forall₂ (Field.Respelled spelling queries) statement.groupBy other.groupBy
  having : Condition.Respelled spelling queries statement.having other.having
  orderBy : List.Forall₂ (OrderKey.Respelled spelling queries) statement.orderBy other.orderBy
  bounds : statement.bounds.Respelled spelling other.bounds
  access : statement.access = other.access
  isAggregation : statement.isAggregation = other.isAggregation
  isCorrelated : statement.isCorrelated = other.isCorrelated
  residual : Condition.Respelled spelling queries statement.residual other.residual
  metadata : statement.metadata = other.metadata

theorem Statement.Respelled.empty : ({} : Statement Q).Respelled spelling queries {} :=
  ⟨rfl, rfl, .nil, .nil, .nil, .nil, .nil, .nil, ⟨.none, .none⟩, rfl, rfl, rfl, .nil, rfl⟩

section Mono

variable {weaker : Q → Q → Prop}

mutual

theorem Field.Respelled.mono (weaken : ∀ query other, queries query other → weaker query other) :
    (field other : Field Q) → field.Respelled spelling queries other →
      field.Respelled spelling weaker other
  | ⟨kind, _, _, _, _, _, _⟩, ⟨also, _, _, _, _, _, _⟩, same =>
      .intro (FieldKind.Respelled.mono weaken kind also same.kind) same.aliasName
        same.notSelected_eq same.aggregated_eq same.key_eq same.columnId_eq same.columnIndex_eq

theorem FieldKind.Respelled.mono
    (weaken : ∀ query other, queries query other → weaker query other) :
    (kind other : FieldKind Q) → kind.Respelled spelling queries other →
      kind.Respelled spelling weaker other
  | .call _ arguments, _, .call names same =>
      .call names (Field.Respelled.monoAll weaken arguments _ same)
  | .subquery _, _, .subquery same => .subquery (weaken _ _ same)
  | .column _, _, .column paths => .column paths
  | .fieldSet _, _, .fieldSet paths => .fieldSet paths
  | .literal _, _, .literal values => .literal values
  | .parameter _, _, .parameter names => .parameter names
  | .relativeDate _, _, .relativeDate date => .relativeDate date

theorem Field.Respelled.monoAll
    (weaken : ∀ query other, queries query other → weaker query other) :
    (fields others : List (Field Q)) → List.Forall₂ (Field.Respelled spelling queries) fields others →
      List.Forall₂ (Field.Respelled spelling weaker) fields others
  | [], _, .nil => .nil
  | field :: rest, _, .cons first later =>
      .cons (Field.Respelled.mono weaken field _ first)
        (Field.Respelled.monoAll weaken rest _ later)

end

theorem Condition.Related.mono {α β : Type} {values others : α → β → Prop} {entry : Condition α}
    {also : Condition β} (same : entry.Related values also)
    (weaken : ∀ value other, values value other → others value other) :
    entry.Related others also := by
  cases same with
  | noop => exact .noop
  | unknown => exact .unknown
  | operand same => exact .operand (weaken _ _ same)
  | operator op => exact .operator op

theorem Statement.Respelled.mono {statement other : Statement Q}
    (same : statement.Respelled spelling queries other)
    (weaken : ∀ query other, queries query other → weaker query other) :
    statement.Respelled spelling weaker other :=
  have fields {fields others : List (Field Q)} :
      List.Forall₂ (Field.Respelled spelling queries) fields others →
        List.Forall₂ (Field.Respelled spelling weaker) fields others :=
    Field.Respelled.monoAll weaken fields others
  have conditions {conditions others : List (Condition (Field Q))}
      (same : Condition.Respelled spelling queries conditions others) :
      Condition.Respelled spelling weaker conditions others :=
    same.imp fun _ _ entries => entries.mono (Field.Respelled.mono weaken)
  { same with
    fields := fields same.fields
    objects := same.objects.imp fun _ _ objects =>
      { objects with plan := objects.plan.imp weaken }
    filter := conditions same.filter
    groupBy := fields same.groupBy
    having := conditions same.having
    orderBy := same.orderBy.imp fun _ _ orders =>
      { orders with field := Field.Respelled.mono weaken _ _ orders.field }
    residual := conditions same.residual }

end Mono

end ObjectQuery
