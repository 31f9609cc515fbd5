import ObjectQuery.Resolution.Scope

namespace ObjectQuery

/-!
Numbers of queries, objects and columns. The counters run through a whole
compilation, while the numbers of keys are looked up within one query and the
lists of related rows in it.
-/

/-- The numbers that keys have in one query. -/
structure Registry where
  /-- The number of each object, by its key. -/
  viewIds : SortedMap String Nat := .empty
  /-- The number of each column, by its key. -/
  columnIds : SortedMap String Nat := .empty
  /-- The place of each column among those that its object returns, by its key. -/
  columnIndexes : SortedMap String Nat := .empty
  /-- What the depth of objects is counted from. -/
  depthOffset : Nat := 0

/-- The state of a compilation. -/
structure Session where
  nextQueryId : Nat := 1
  nextViewId : Nat := 1
  nextColumnId : Nat := 1
  registry : Registry := {}
  maxQueryDepth : Nat := 0
  maxViewDepth : Nat := 0
  queryGraph : SortedMap Nat QueryNode := .empty
  viewGraph : SortedMap Nat ViewNode := .empty
  mentions : Mentions := {}
  /-- Queries that may be nested in each other. -/
  limit : Option Nat

/-- Steps of a compilation, which keep the numbers they gave when they fail. -/
abbrev Compilation := EStateM CompileError Session

namespace Compilation

def ofState (step : StateM Session α) : Compilation α := fun session =>
  let (value, session) := step session
  .ok value session

def ofExcept (result : Except CompileError α) : Compilation α := fun session =>
  match result with
  | .ok value => .ok value session
  | .error error => .error error session

/-- A step with numbers of its own for keys, after which those from before are back. -/
def apart (registry : Registry) (step : Compilation α) : Compilation α := fun session =>
  match step { session with registry } with
  | .ok value after => .ok value { after with registry := session.registry }
  | .error error after => .error error { after with registry := session.registry }

end Compilation

namespace Session

def takeQueryId : StateM Session Nat := fun session =>
  (session.nextQueryId, { session with nextQueryId := session.nextQueryId + 1 })

def takeViewId : StateM Session Nat := fun session =>
  (session.nextViewId, { session with nextViewId := session.nextViewId + 1 })

def takeColumnId : StateM Session Nat := fun session =>
  (session.nextColumnId, { session with nextColumnId := session.nextColumnId + 1 })

def updateRegistry (update : Registry → Registry) : StateM Session Unit :=
  modify fun session => { session with registry := update session.registry }

/-- The number of the object with a key, a new one where it has none. -/
def viewId (key : String) : StateM Session Nat := do
  match (← get).registry.viewIds.find? key with
  | some id => return id
  | none =>
      let id ← takeViewId
      updateRegistry fun registry => { registry with viewIds := registry.viewIds.insert key id }
      return id

/-- The number of the column with a key, a new one where it has none. -/
def columnId (key : String) : StateM Session Nat := do
  match (← get).registry.columnIds.find? key with
  | some id => return id
  | none =>
      let id ← takeColumnId
      updateRegistry fun registry =>
        { registry with columnIds := registry.columnIds.insert key id }
      return id

def metadata (session : Session) : Metadata where
  maxQueryDepth := session.maxQueryDepth
  maxViewDepth := session.maxViewDepth
  nextQueryId := session.nextQueryId
  nextViewId := session.nextViewId
  nextColumnId := session.nextColumnId
  queryGraph := session.queryGraph
  viewGraph := session.viewGraph
  functions := session.mentions.functions
  parameters := session.mentions.parameters
  relativeDates := session.mentions.relativeDates

end Session

end ObjectQuery
