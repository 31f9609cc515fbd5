import ObjectQuery.Numbering.Session
import ObjectQuery.Plan.ColumnIndex
import ObjectQuery.Plan.Residual

namespace ObjectQuery

/-!
The queries of single objects. Each returns the columns that are read of its
object, filtered by what the object can decide alone.
-/

namespace SourceObject

/-- The fields that the query of an object returns, in their places. -/
def ownFields (path : Path) (fields : List (Field Q)) : List (Field Q) :=
  let isOwn (field : Field Q) : Bool := field.objectPath?.any (·.same path)
  (fields.filter isOwn).mapIdx fun index field => { field with columnIndex := some index }

def withPlan (fields : List (Field Query)) (object : SourceObject Query) : SourceObject Query :=
  let body : Statement Query :=
    { objects := [{ object with plan := none }], fields := ownFields object.path fields }
  { object with plan := some ⟨body⟩ }

/-- The columns that the query of an object returns, by their keys. -/
def addIndexes (indexes : SortedMap String Nat) (object : SourceObject Query) :
    SortedMap String Nat :=
  let fields := (object.plan.map (·.body.fields)).getD []
  fields.foldl (fun indexes field => indexes.insert field.key (field.columnIndex.getD 0)) indexes

/--
The object with its share of the filter, and its part of the order. The bounds
of the rows belong to the primary object.
-/
def withShare (statement : Statement Query) (tree : Option (ConditionTree (Field Query)))
    (isPrimary : Bool) (object : SourceObject Query) : SourceObject Query :=
  let shared := (tree.map fun tree => (tree.shareOf object.path).2).getD []
  let plan := object.plan.map fun plan =>
    (⟨{ plan.body with
        filter := shared
        orderBy := statement.orderBy.filter (·.field.belongsTo object.path)
        bounds := if isPrimary then statement.bounds else {}
        access := statement.access }⟩ : Query)
  { object with
    hasConditions := (statement.filter.filterMap Condition.operand?).any (·.belongsTo object.path)
    innerJoin := !isPrimary && !shared.isEmpty
    plan }

def shareAll (statement : Statement Query) (tree : Option (ConditionTree (Field Query))) :
    List (SourceObject Query) → List (SourceObject Query)
  | [] => []
  | primary :: rest =>
      primary.withShare statement tree true :: rest.map (·.withShare statement tree false)

end SourceObject

namespace Statement

/-- A statement with its columns in their places, and the query around it. -/
def indexColumns (statement : Statement Query) (parent : Option (Statement Query)) :
    Compilation (Statement Query × Option (Statement Query)) := fun session =>
  let settled (correlation : Correlation) : Session :=
    { session with registry := { session.registry with columnIndexes := correlation.indexes } }
  let correlation : Correlation := { indexes := session.registry.columnIndexes, parent }
  match Correlation.indexStatement statement correlation with
  | .ok statement correlation => .ok (statement, correlation.parent) (settled correlation)
  | .error error correlation => .error (.semantic error) (settled correlation)

def filterTree (conditions : List (Condition (Field Query))) :
    Compilation (Option (ConditionTree (Field Query))) :=
  match ConditionTree.ofPostfix conditions with
  | .ok tree => return tree
  | .error fault => throw (.internal (.postfixList fault))

/--
A statement with a query for each of its objects and the filter that is left
for the joined rows. The query around it may have to return more columns.
-/
def plan (statement : Statement Query) (parent : Option (Statement Query)) :
    Compilation (Statement Query × Option (Statement Query)) := do
  let objects := statement.objects.map (·.withPlan statement.fields)
  modify fun session =>
    let columnIndexes := objects.foldl SourceObject.addIndexes session.registry.columnIndexes
    { session with registry := { session.registry with columnIndexes } }
  let (statement, parent) ← indexColumns { statement with objects } parent
  let tree ← filterTree statement.filter
  let objects := SourceObject.shareAll statement tree statement.objects
  match Condition.residualOf statement.filter tree (objects.map (·.path)) with
  | .ok residual => return ({ statement with objects, residual }, parent)
  | .error count => throw (.internal (.residualOperands count))

end Statement

end ObjectQuery
