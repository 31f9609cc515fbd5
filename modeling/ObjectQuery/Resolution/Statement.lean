import ObjectQuery.Condition.Tree
import ObjectQuery.Query.Statement
import ObjectQuery.Resolution.Field
import ObjectQuery.Resolution.Source

namespace ObjectQuery

/-!
Columns that a query reads without selecting them. They are appended to its
fields, for the queries of the objects have to fetch them.
-/

namespace Field

mutual

/-- The columns that a field reads, those in the arguments of calls included. -/
def columns : Field Q → List (Field Q)
  | ⟨kind, aliasName, notSelected, aggregated, key, columnId, columnIndex⟩ =>
      kindColumns kind ⟨kind, aliasName, notSelected, aggregated, key, columnId, columnIndex⟩

def kindColumns : FieldKind Q → Field Q → List (Field Q)
  | .column _, field => [field]
  | .call _ arguments, _ => allColumns arguments
  | _, _ => []

def allColumns : List (Field Q) → List (Field Q)
  | [] => []
  | field :: rest => field.columns ++ allColumns rest

end

/-- The first of the fields with each key that is not among those seen. -/
def firstsOf (seen : SortedSet String) : List (Field Q) → List (Field Q)
  | [] => []
  | field :: rest =>
      if SortedMap.contains seen field.key then
        firstsOf seen rest
      else
        field :: firstsOf (SortedSet.add seen field.key) rest

end Field

namespace Statement

/-- The columns that the clauses of a statement read, in the order of the clauses. -/
def columns (statement : Statement Q) : List (Field Q) :=
  let ofConditions (conditions : List (Condition (Field Q))) : List (Field Q) :=
    Field.allColumns (conditions.filterMap Condition.operand?)
  Field.allColumns statement.fields ++ ofConditions statement.filter ++
    Field.allColumns statement.groupBy ++ ofConditions statement.having ++
    (statement.orderBy.map (·.field)).filter (·.kind.isColumn)

def selectRead (statement : Statement Q) : Statement Q :=
  let selected := (statement.fields.filter (·.kind.isColumn)).map (·.key)
  let unselected := Field.firstsOf (SortedSet.ofList selected) statement.columns
  { statement with
    fields := statement.fields ++ unselected.map fun field => { field with notSelected := true } }

end Statement

/-!
Resolving the clauses of a statement one after the other. Each clause may
register objects that the later ones see. Queries nested in the statement are
left as they are.
-/

/-- The selected fields with an alias, by the key of the alias. -/
abbrev SelectAliases (Q : Type) := SortedMap String (Field Q)

namespace Field

/-- The aliases of selected fields with one more, which must be new. -/
def addAlias (selected : SelectAliases Q) (field : Field Q) : Resolver Q (SelectAliases Q) :=
  match field.aliasName with
  | none => return selected
  | some aliasName =>
      if selected.contains (lowerText aliasName) then
        throw (.duplicateFieldAlias aliasName)
      else
        return selected.insert (lowerText aliasName) field

/-- The selected fields with their paths resolved, and those of them with an alias. -/
def resolveSelected (use : FieldUse) (selected : SelectAliases Q) :
    List (Field Q) → Resolver Q (List (Field Q) × SelectAliases Q)
  | [] => return ([], selected)
  | field :: rest => do
      let field ← if field.kind.isSubquery then pure field else field.resolve use
      let selected ← addAlias selected field
      let (rest, selected) ← resolveSelected use selected rest
      return (field :: rest, selected)

/-- The selected field whose alias a grouping key names, the primary path being `depth` long. -/
def selectedFor? (selected : SelectAliases Q) (depth : Nat) (key : Field Q) : Option (Field Q) := do
  let path ← key.kind.path?
  if path.length = depth + 1 then
    selected.find? (lowerText (← path[depth]?))
  else
    none

/-- Grouping keys with aliases replaced by what they name, and the keys that rows are grouped by. -/
def replaceKeys (selected : SelectAliases Q) (depth : Nat) (keys : SortedSet String) :
    List (Field Q) → List (Field Q) × SortedSet String
  | [] => ([], keys)
  | key :: rest =>
      match selectedFor? selected depth key with
      | none =>
          let (rest, keys) := replaceKeys selected depth keys rest
          (key :: rest, keys)
      | some field =>
          let keys := SortedSet.add (SortedMap.erase keys key.key) field.key
          let (rest, keys) := replaceKeys selected depth keys rest
          (field :: rest, keys)

def resolveConditions (use : FieldUse) :
    List (Condition (Field Q)) → Resolver Q (List (Condition (Field Q)))
  | [] => return []
  | .operand field :: rest => do
      let field ← if field.kind.isSubquery then pure field else field.resolve use
      return .operand field :: (← resolveConditions use rest)
  | condition :: rest => return condition :: (← resolveConditions use rest)

end Field

namespace OrderKey

/-- A sort key with its path resolved, or with the selected field whose alias it names. -/
def resolve (use : FieldUse) (selected : SelectAliases Q) (order : OrderKey Q) :
    Resolver Q (OrderKey Q) := do
  let named : Option (Field Q) :=
    match order.field.kind.path? with
    | some [name] => selected.find? (lowerText name)
    | _ => none
  match named with
  | some field => return { order with field }
  | none => return { order with field := ← order.field.resolve use }

end OrderKey

namespace SourceObject

/-- Objects with those after the first in ascending order of the lengths of their paths. -/
def inOrder : List (SourceObject Q) → List (SourceObject Q)
  | [] => []
  | primary :: rest =>
      primary :: rest.mergeSort fun left right => left.path.length ≤ right.path.length

end SourceObject

namespace Statement

abbrev Resolving (Q : Type) := EStateM CompileError (Scope Q)

/-- A step that only the author of the query can make fail. -/
def semantic (resolver : Resolver Q α) : Resolving Q α :=
  resolver.adaptExcept .semantic

def distribute (conditions : List (Condition (Field Q))) :
    Resolving Q (List (Condition (Field Q))) :=
  match Condition.distribute conditions with
  | .ok conditions => return conditions
  | .error fault => throw (.internal (.postfixList fault))

/-- The filter of grouped rows, which takes rows that are grouped. -/
def resolveHaving (use : FieldUse) (primary : Path) (grouped : Bool)
    (having : List (Condition (Field Q))) : Resolving Q (List (Condition (Field Q))) := do
  if having.isEmpty then
    return having
  if !grouped then
    throw (.semantic (.havingWithoutGroupBy primary.render))
  let having ← distribute having
  semantic (Field.resolveConditions use having)

/--
A statement with its names resolved and the columns it reads selected, together
with the aliases of its fields. `primary` is the path of its primary object, or
of the one around it in a list of related rows.
-/
def resolve (place : QueryPlace) (primary : Path) (statement : Statement Q) :
    Resolving Q (Statement Q × SelectAliases Q) := do
  semantic (Scope.resolveObjects place primary)
  let groupBy ← semantic (Field.resolveAll { place := .groupBy, groupKeys := .empty }
    statement.groupBy)
  let keys := SortedSet.ofList (groupBy.map (·.key))
  if statement.fields.any Grouping.counts then
    modify fun scope => { scope with isAggregation := true }
  let (fields, selected) ← semantic (Field.resolveSelected { place := .select, groupKeys := keys }
    .empty statement.fields)
  let (groupBy, keys) := Field.replaceKeys selected (← get).primary.length keys groupBy
  let filter ← distribute statement.filter
  let filter ← semantic (Field.resolveConditions { place := .filter, groupKeys := keys } filter)
  let having ← resolveHaving { place := .having, groupKeys := keys } primary (!groupBy.isEmpty)
    statement.having
  let orderBy ← semantic (statement.orderBy.mapM fun order =>
    order.resolve { place := .orderBy, groupKeys := keys } selected)
  let scope ← get
  let resolved : Statement Q :=
    { statement with
      fields, filter, groupBy, having, orderBy
      objects := SourceObject.inOrder scope.objects
      isAggregation := scope.isAggregation }
  return (resolved.selectRead, selected)

end Statement

end ObjectQuery
