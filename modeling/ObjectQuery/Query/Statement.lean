import ObjectQuery.Collection.SortedMap
import ObjectQuery.Condition.Basic
import ObjectQuery.Query.Field

namespace ObjectQuery

/-! The parts of a query besides its fields, and queries as nested statements. -/

/-- An object that a query reads from. -/
structure SourceObject (Q : Type) where
  path : Path
  aliasName : Option String := none
  /-- The key of the path. -/
  key : String := ""
  /-- The filter of the query reads a column of the object. -/
  hasConditions : Bool := false
  /-- Rows of the query need a row of the object. -/
  innerJoin : Bool := false
  viewId : Option Nat := none
  parentViewId : Option Nat := none
  /-- The query that fetches the rows of the object alone. -/
  plan : Option Q := none

namespace SourceObject

def map (f : P → Q) (object : SourceObject P) : SourceObject Q :=
  { object with plan := object.plan.map f }

/-- Whether two objects agree, by a test of the queries in them. -/
def agrees (test : P → Q → Bool) (left : SourceObject P) (right : SourceObject Q) : Bool :=
  left.path == right.path && left.aliasName == right.aliasName && left.key == right.key &&
    left.hasConditions == right.hasConditions && left.innerJoin == right.innerJoin &&
    left.viewId == right.viewId && left.parentViewId == right.parentViewId &&
    match left.plan, right.plan with
    | none, none => true
    | some left, some right => test left right
    | _, _ => false

def render (object : SourceObject Q) : String :=
  match object.aliasName with
  | some aliasName => object.path.render ++ " " ++ aliasName
  | none => object.path.render

end SourceObject

/-- A key by which rows are sorted. -/
structure OrderKey (Q : Type) where
  field : Field Q
  descending : Bool := false
  nullsLast : Bool := false

namespace OrderKey

def map (f : P → Q) (order : OrderKey P) : OrderKey Q :=
  { order with field := order.field.map f }

/-- Whether two keys agree, by a test of the queries in them. -/
def agrees (test : P → Q → Bool) (left : OrderKey P) (right : OrderKey Q) : Bool :=
  left.field.agrees test right.field && left.descending == right.descending &&
    left.nullsLast == right.nullsLast

end OrderKey

/-- A number of rows, given or left to a parameter. -/
inductive RowBound where
  | count (value : Int64)
  | parameter (name : String)
  deriving DecidableEq, Repr

namespace RowBound

def parameter? : RowBound → Option String
  | parameter name => some name
  | count _ => none

def count? : RowBound → Option Int64
  | count value => some value
  | parameter _ => none

end RowBound

/-- The rows to leave out and the rows to take. -/
structure RowBounds where
  offset : Option RowBound := none
  limit : Option RowBound := none
  deriving DecidableEq, Repr

namespace RowBounds

def isEmpty (bounds : RowBounds) : Bool :=
  bounds.offset.isNone && bounds.limit.isNone

theorem isEmpty_iff (bounds : RowBounds) : bounds.isEmpty = true ↔ bounds = {} := by
  cases bounds
  simp [isEmpty]

def parameters (bounds : RowBounds) : List String :=
  [bounds.offset, bounds.limit].filterMap (·.bind RowBound.parameter?)

end RowBounds

/-- The uses of the rows that a query announces. -/
structure AccessClause where
  view : Bool := false
  reference : Bool := false
  update : Bool := false
  updateTracking : Bool := false
  updateViewstat : Bool := false
  deriving DecidableEq, Repr

namespace AccessClause

def isEmpty (clause : AccessClause) : Bool :=
  clause == {}

theorem isEmpty_iff (clause : AccessClause) : clause.isEmpty = true ↔ clause = {} := by
  simp [isEmpty]

end AccessClause

/-- A query in the graph of nested queries. -/
structure QueryNode where
  parentId : Option Nat
  depth : Nat
  isConditional : Bool
  deriving DecidableEq, Repr

/-- An object in the graph of objects. -/
structure ViewNode where
  parentViewId : Option Nat
  queryId : Nat
  /-- The length of the path, counted from the primary object of the root. -/
  depth : Nat
  queryDepth : Nat
  deriving DecidableEq, Repr

/-- What is known of a whole compiled query. -/
structure Metadata where
  version : String := ""
  date : Instant := .epoch
  /-- Nanoseconds spent on compiling. -/
  elapsedTime : Nat := 0
  source : String := ""
  maxQueryDepth : Nat
  maxViewDepth : Nat
  nextQueryId : Nat
  nextViewId : Nat
  nextColumnId : Nat
  queryGraph : SortedMap Nat QueryNode
  viewGraph : SortedMap Nat ViewNode
  functions : SortedSet String
  parameters : SortedSet String
  relativeDates : SortedSet String
  deriving DecidableEq

/-- A statement, the type of the queries nested in it left open. -/
structure Statement (Q : Type) where
  id : Nat := 0
  parentId : Option Nat := none
  fields : List (Field Q) := []
  objects : List (SourceObject Q) := []
  filter : List (Condition (Field Q)) := []
  groupBy : List (Field Q) := []
  having : List (Condition (Field Q)) := []
  orderBy : List (OrderKey Q) := []
  bounds : RowBounds := {}
  access : AccessClause := {}
  isAggregation : Bool := false
  /-- The query reads a column of a query around it. -/
  isCorrelated : Bool := false
  /-- The filter that is left for the joined rows. -/
  residual : List (Condition (Field Q)) := []
  metadata : Option Metadata := none

def listsAgree (test : α → β → Bool) : List α → List β → Bool
  | [], [] => true
  | left :: lefts, right :: rights => test left right && listsAgree test lefts rights
  | _, _ => false

namespace Statement

def map (f : P → Q) (statement : Statement P) : Statement Q :=
  { statement with
    fields := statement.fields.map (·.map f)
    objects := statement.objects.map (·.map f)
    filter := statement.filter.map (·.map (·.map f))
    groupBy := statement.groupBy.map (·.map f)
    having := statement.having.map (·.map (·.map f))
    orderBy := statement.orderBy.map (·.map f)
    residual := statement.residual.map (·.map (·.map f)) }

/-- Whether two statements agree, by a test of the queries in them. -/
def agrees (test : P → Q → Bool) (left : Statement P) (right : Statement Q) : Bool :=
  let conditions := listsAgree (Condition.agrees (Field.agrees test))
  let fields := listsAgree (Field.agrees test)
  left.id == right.id && left.parentId == right.parentId &&
    fields left.fields right.fields &&
    listsAgree (SourceObject.agrees test) left.objects right.objects &&
    conditions left.filter right.filter && fields left.groupBy right.groupBy &&
    conditions left.having right.having &&
    listsAgree (OrderKey.agrees test) left.orderBy right.orderBy &&
    left.bounds == right.bounds && left.access == right.access &&
    left.isAggregation == right.isAggregation && left.isCorrelated == right.isCorrelated &&
    conditions left.residual right.residual && left.metadata == right.metadata

end Statement

/-- A query: a statement in which queries are nested. -/
structure Query where
  body : Statement Query

mutual

def Query.fold (f : Statement β → β) : Query → β
  | ⟨statement⟩ => f (Query.foldStatement f statement)

def Query.foldStatement (f : Statement β → β) : Statement Query → Statement β
  | ⟨id, parentId, fields, objects, filter, groupBy, having, orderBy, bounds, access,
      isAggregation, isCorrelated, residual, metadata⟩ =>
      ⟨id, parentId, Query.foldFields f fields, Query.foldObjects f objects,
        Query.foldConditions f filter, Query.foldFields f groupBy,
        Query.foldConditions f having, Query.foldOrderKeys f orderBy, bounds, access,
        isAggregation, isCorrelated, Query.foldConditions f residual, metadata⟩

def Query.foldKind (f : Statement β → β) : FieldKind Query → FieldKind β
  | .column path => .column path
  | .fieldSet path => .fieldSet path
  | .call name arguments => .call name (Query.foldFields f arguments)
  | .subquery query => .subquery (query.fold f)
  | .literal value => .literal value
  | .parameter name => .parameter name
  | .relativeDate date => .relativeDate date

def Query.foldField (f : Statement β → β) : Field Query → Field β
  | ⟨kind, aliasName, notSelected, aggregated, key, columnId, columnIndex⟩ =>
      ⟨Query.foldKind f kind, aliasName, notSelected, aggregated, key, columnId, columnIndex⟩

def Query.foldFields (f : Statement β → β) : List (Field Query) → List (Field β)
  | [] => []
  | field :: rest => Query.foldField f field :: Query.foldFields f rest

def Query.foldPlan (f : Statement β → β) : Option Query → Option β
  | none => none
  | some query => some (query.fold f)

def Query.foldObject (f : Statement β → β) : SourceObject Query → SourceObject β
  | ⟨path, aliasName, key, hasConditions, innerJoin, viewId, parentViewId, plan⟩ =>
      ⟨path, aliasName, key, hasConditions, innerJoin, viewId, parentViewId,
        Query.foldPlan f plan⟩

def Query.foldObjects (f : Statement β → β) :
    List (SourceObject Query) → List (SourceObject β)
  | [] => []
  | object :: rest => Query.foldObject f object :: Query.foldObjects f rest

def Query.foldCondition (f : Statement β → β) : Condition (Field Query) → Condition (Field β)
  | .noop => .noop
  | .unknown => .unknown
  | .operand field => .operand (Query.foldField f field)
  | .operator op => .operator op

def Query.foldConditions (f : Statement β → β) :
    List (Condition (Field Query)) → List (Condition (Field β))
  | [] => []
  | condition :: rest => Query.foldCondition f condition :: Query.foldConditions f rest

def Query.foldOrderKey (f : Statement β → β) : OrderKey Query → OrderKey β
  | ⟨field, descending, nullsLast⟩ => ⟨Query.foldField f field, descending, nullsLast⟩

def Query.foldOrderKeys (f : Statement β → β) : List (OrderKey Query) → List (OrderKey β)
  | [] => []
  | order :: rest => Query.foldOrderKey f order :: Query.foldOrderKeys f rest

end

namespace Query

def agrees (left right : Query) : Bool :=
  left.fold (fun statement other => statement.agrees (fun test query => test query) other.body)
    right

end Query

end ObjectQuery
