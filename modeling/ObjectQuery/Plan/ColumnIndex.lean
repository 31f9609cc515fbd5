import ObjectQuery.Query.Fault
import ObjectQuery.Query.Statement

namespace ObjectQuery

/-!
Places of columns among those that their objects return. A list of related rows
may read a column of an object around it, which that object then has to return.
-/

/-- What is known while columns are given their places. -/
structure Correlation where
  /-- The place of each column, by its key. -/
  indexes : SortedMap String Nat
  /-- The query around a list of related rows. -/
  parent : Option (Statement Query)
  /-- A column of an object around the query is read. -/
  isCorrelated : Bool := false

namespace Correlation

/-- Steps of giving places, which keep what is known when they fail. -/
abbrev Step := EStateM SemanticError Correlation

/-- The place of the column with a key, if its object returns it. -/
def index? (key : String) : Step (Option Nat) := do
  return (← get).indexes.find? key

/--
The objects with one more column for the first with the key of the object, and
the place of the column; none where no such object has a query of its own.
-/
def fetch? (objectKey : String) (column : Field Query) :
    List (SourceObject Query) → Option (List (SourceObject Query) × Field Query)
  | [] => none
  | object :: rest =>
      if object.key == objectKey then
        object.plan.map fun plan =>
          let fetched : Field Query :=
            { column with columnIndex := some plan.body.fields.length, notSelected := true }
          let fields := plan.body.fields ++ [fetched]
          ({ object with plan := some ⟨{ plan.body with fields }⟩ } :: rest, fetched)
      else
        (fetch? objectKey column rest).map fun (objects, fetched) => (object :: objects, fetched)

def fetchFromParent (column : Field Query) : Step (Option Nat) := do
  let correlation ← get
  let path : Path := column.kind.path?.getD []
  let fetched? : Option (Statement Query × Field Query) := do
    let parent ← correlation.parent
    let (objects, fetched) ← fetch? (Path.key path.parent) column parent.objects
    return ({ parent with objects, fields := parent.fields ++ [fetched] }, fetched)
  match fetched? with
  | none => throw (.ancestorNotFound path.render)
  | some (parent, fetched) =>
      let index := fetched.columnIndex.getD 0
      set { correlation with
        parent := some parent
        indexes := correlation.indexes.insert column.key index }
      return some index

/-- The place of a column of a query whose primary path is `depth` long. -/
def columnIndex (depth : Nat) (path : Path) (column : Field Query) : Step (Option Nat) := do
  let index ← index? column.key
  if path.length ≤ depth then
    modify fun correlation => { correlation with isCorrelated := true }
    match index with
    | some _ => return index
    | none => fetchFromParent column
  else
    return index

mutual

def indexField (depth : Nat) : Field Query → Step (Field Query)
  | ⟨kind, aliasName, notSelected, aggregated, key, columnId, columnIndex⟩ =>
      indexKind depth kind
        ⟨kind, aliasName, notSelected, aggregated, key, columnId, columnIndex⟩

def indexKind (depth : Nat) : FieldKind Query → Field Query → Step (Field Query)
  | .column path, field => do
      return { field with columnIndex := ← columnIndex depth path field }
  | .call name arguments, field => do
      return { field with kind := .call name (← indexAll depth arguments) }
  | _, field => return field

def indexAll (depth : Nat) : List (Field Query) → Step (List (Field Query))
  | [] => return []
  | field :: rest => do
      let field ← indexField depth field
      return field :: (← indexAll depth rest)

end

def indexOperand (depth : Nat) (field : Field Query) : Step (Field Query) := do
  match field.kind with
  | .column _ => return { field with columnIndex := ← index? field.key }
  | .call name arguments => return { field with kind := .call name (← indexAll depth arguments) }
  | _ => return field

def indexConditions (depth : Nat) (conditions : List (Condition (Field Query))) :
    Step (List (Condition (Field Query))) :=
  conditions.mapM fun condition => do
    match condition with
    | .operand field => return .operand (← indexOperand depth field)
    | _ => return condition

def indexOrderKey (order : OrderKey Query) : Step (OrderKey Query) := do
  let columnIndex ← index? order.field.key
  return { order with field := { order.field with columnIndex } }

def indexStatement (statement : Statement Query) : Step (Statement Query) := do
  let depth := (statement.objects.head?.map (·.path.length)).getD 0
  let fields ← indexAll depth statement.fields
  let orderBy ← statement.orderBy.mapM indexOrderKey
  let groupBy ← indexAll depth statement.groupBy
  let filter ← indexConditions depth statement.filter
  let having ← indexConditions depth statement.having
  let isCorrelated := statement.isCorrelated || (← get).isCorrelated
  return { statement with fields, orderBy, groupBy, filter, having, isCorrelated }

end Correlation

end ObjectQuery
