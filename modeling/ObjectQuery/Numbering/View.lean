import ObjectQuery.Numbering.Session

namespace ObjectQuery

/-! Numbers of the objects that a query reads from. -/

namespace SourceObject

/-- An object with its number and that of its parent, which the graph of objects records. -/
def assignId (queryId queryDepth : Nat) (object : SourceObject Q) :
    StateM Session (SourceObject Q) := do
  let id ← Session.viewId object.key
  let registry := (← get).registry
  let depth := object.path.length + registry.depthOffset
  let parentViewId :=
    if 1 < object.path.length then
      registry.viewIds.find? (Path.key object.path.parent) <|> object.parentViewId
    else
      object.parentViewId
  let node : ViewNode := { parentViewId, queryId, depth, queryDepth }
  modify fun session =>
    { session with
      maxViewDepth := max session.maxViewDepth depth
      viewGraph := session.viewGraph.insert id node }
  return { object with viewId := some id, parentViewId }

end SourceObject

namespace Statement

def assignViewIds (depth : Nat) (statement : Statement Q) : StateM Session (Statement Q) := do
  return { statement with
    objects := ← statement.objects.mapM (·.assignId statement.id depth) }

end Statement

end ObjectQuery
