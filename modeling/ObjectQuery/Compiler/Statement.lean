import ObjectQuery.Numbering.Column
import ObjectQuery.Numbering.View
import ObjectQuery.Plan.PerObject
import ObjectQuery.Resolution.Statement

namespace ObjectQuery

/-!
Compiling a statement by itself: its names are resolved, its parts are numbered,
and it is split into the queries of its objects. Queries nested in it are left.
-/

namespace FieldKind

def query? : FieldKind Q → Option Q
  | subquery query => some query
  | _ => none

end FieldKind

namespace Statement

def nested (statement : Statement Q) : List Q :=
  let ofConditions (conditions : List (Condition (Field Q))) : List Q :=
    (conditions.filterMap Condition.operand?).filterMap (·.kind.query?)
  statement.fields.filterMap (·.kind.query?) ++ ofConditions statement.filter ++
    ofConditions statement.having

/-- The statement under a new number, which the graph of queries records. -/
def register (place : QueryPlace) (depth : Nat) (parent : Option (Statement Query))
    (statement : Statement Query) : StateM Session (Statement Query) := do
  let id ← Session.takeQueryId
  let parentId := parent.map (·.id)
  let node : QueryNode := { parentId, depth, isConditional := place == .conditional }
  modify fun session =>
    { session with
      maxQueryDepth := max session.maxQueryDepth depth
      queryGraph := session.queryGraph.insert id node }
  return { statement with id, parentId }

/--
The path that the paths of a statement begin with: that of its first object,
which no other object may qualify, or in a list of related rows that of the
first object around it.
-/
def primaryPath (place : QueryPlace) (parent : Option (Statement Query))
    (statement : Statement Query) : Except CompileError Path :=
  match statement.objects.head?, place with
  | none, _ => .error (.internal (.noObjects statement.id))
  | some _, .select =>
      match parent.bind (·.objects.head?) with
      | some object => .ok object.path
      | none => .error (.internal .noParent)
  | some object, .primary | some object, .conditional =>
      if object.path.length = 1 then
        .ok object.path
      else
        .error (.semantic (.qualifiedPrimaryObject object.path.render))

/-- A statement with its names resolved, the aliases of its fields, and the names it knows. -/
def resolveNames (place : QueryPlace) (primary : Path) (aliases : AliasMap)
    (statement : Statement Query) :
    Compilation (Statement Query × SelectAliases Query × AliasMap) := fun session =>
  let settled (scope : Scope Query) : Session := { session with mentions := scope.mentions }
  match statement.resolve place primary
      ⟨statement.objects, aliases, statement.isAggregation, session.mentions⟩ with
  | .ok (statement, selected) scope => .ok (statement, selected, scope.aliases) (settled scope)
  | .error error scope => .error error (settled scope)

def assignIds (depth : Nat) (selected : SelectAliases Query) (statement : Statement Query) :
    Compilation (Statement Query) := do
  let statement ← Compilation.ofState (statement.assignViewIds depth)
  let statement ← Compilation.ofState statement.assignColumnIds
  let statement := statement.nameFields selected.keys
  match Query.repetition? statement with
  | some error => throw (.semantic error)
  | none => return statement

def mentionBounds (statement : Statement Query) : Compilation Unit :=
  modify fun session =>
    { session with
      mentions := statement.bounds.parameters.foldl Mentions.addParameter session.mentions }

/--
A statement compiled but for the queries nested in it, the query around it, and
the names that lists of related rows in it may use.
-/
def compileOwn (place : QueryPlace) (depth : Nat) (inherited : AliasMap)
    (parent : Option (Statement Query)) (statement : Statement Query) :
    Compilation (Statement Query × Option (Statement Query) × AliasMap) := do
  if let some limit := (← get).limit then
    if limit < depth then
      throw (.semantic (.nestingTooDeep depth limit))
  let statement ← Compilation.ofState (statement.register place depth parent)
  let primary ← Compilation.ofExcept (primaryPath place parent statement)
  let inherited := if place = .select then inherited else .empty
  let (statement, selected, aliases) ← statement.resolveNames place primary inherited
  let statement ← statement.assignIds depth selected
  let (statement, fetched) ← statement.plan (if place = .select then parent else none)
  return (statement, if place = .select then fetched else parent, aliases)

end Statement

end ObjectQuery
