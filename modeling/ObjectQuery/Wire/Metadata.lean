import ObjectQuery.Query.Statement
import ObjectQuery.Wire.Literal

namespace ObjectQuery

/-! Reading metadata, all members of which have to be there. -/

/-- A query of the graph of which some members have been read. -/
structure QueryNodeDraft where
  parentId : Option Nat := none
  depth : Option Nat := none
  isConditional : Bool := false

namespace QueryNodeDraft

/-- How each member of a query in the graph is read. -/
def assign (name : String) : Option (QueryNodeDraft → Node → Read QueryNodeDraft) :=
  match name with
  | "parentId" => some fun draft node => do
      return { draft with parentId := ← node.orNull Node.count }
  | "depth" => some fun draft node => do return { draft with depth := some (← node.count) }
  | "isConditional" => some fun draft node => do
      return { draft with isConditional := ← node.flag }
  | _ => none

def finish (draft : QueryNodeDraft) : Read QueryNode := do
  return {
    parentId := draft.parentId
    depth := ← Member.required "depth" draft.depth
    isConditional := draft.isConditional }

end QueryNodeDraft

namespace QueryNode

def ofNode (level : Nat) (node : Node) : Read QueryNode := do
  let members ← node.members level "struct QueryGraphLeaf"
  (← Member.readOnce QueryNodeDraft.assign {} members).finish

end QueryNode

/-- An object of the graph of which some members have been read. -/
structure ViewNodeDraft where
  parentViewId : Option Nat := none
  queryId : Option Nat := none
  depth : Option Nat := none
  queryDepth : Option Nat := none

namespace ViewNodeDraft

/-- How each member of an object in the graph is read. -/
def assign (name : String) : Option (ViewNodeDraft → Node → Read ViewNodeDraft) :=
  match name with
  | "parentViewId" => some fun draft node => do
      return { draft with parentViewId := ← node.orNull Node.count }
  | "queryId" => some fun draft node => do return { draft with queryId := some (← node.count) }
  | "depth" => some fun draft node => do return { draft with depth := some (← node.count) }
  | "queryDepth" => some fun draft node => do
      return { draft with queryDepth := some (← node.count) }
  | _ => none

def finish (draft : ViewNodeDraft) : Read ViewNode := do
  return {
    parentViewId := draft.parentViewId
    queryId := ← Member.required "queryId" draft.queryId
    depth := ← Member.required "depth" draft.depth
    queryDepth := ← Member.required "queryDepth" draft.queryDepth }

end ViewNodeDraft

namespace ViewNode

def ofNode (level : Nat) (node : Node) : Read ViewNode := do
  let members ← node.members level "struct ViewGraphLeaf"
  (← Member.readOnce ViewNodeDraft.assign {} members).finish

end ViewNode

/-- Metadata of which some members have been read. -/
structure MetadataDraft where
  version : Option String := none
  date : Option Instant := none
  elapsedTime : Option Nat := none
  source : Option String := none
  maxQueryDepth : Option Nat := none
  maxViewDepth : Option Nat := none
  nextQueryId : Option Nat := none
  nextViewId : Option Nat := none
  nextColumnId : Option Nat := none
  queryGraph : Option (SortedMap Nat QueryNode) := none
  viewGraph : Option (SortedMap Nat ViewNode) := none
  functions : Option (SortedSet String) := none
  parameters : Option (SortedSet String) := none
  relativeDates : Option (SortedSet String) := none

namespace MetadataDraft

def graph (level : Nat) (read : Nat → Node → Read α) (node : Node) :
    Read (SortedMap Nat α) := do
  Member.readNumbered (read (level - 1)) .empty (← node.members level "a map")

def set (level : Nat) (node : Node) : Read (SortedSet String) :=
  (node.strings level).map SortedSet.ofList

def assign (level : Nat) (name : String) : Option (MetadataDraft → Node → Read MetadataDraft) :=
  match name with
  | "version" => some fun draft node => do return { draft with version := some (← node.string) }
  | "date" => some fun draft node => do
      return { draft with date := some (← Instant.ofLooseNode node) }
  | "elapsedTime" => some fun draft node => do
      return { draft with elapsedTime := some (← node.natural "u64" UInt64.size) }
  | "source" => some fun draft node => do return { draft with source := some (← node.string) }
  | "maxQueryDepth" => some fun draft node => do
      return { draft with maxQueryDepth := some (← node.count) }
  | "maxViewDepth" => some fun draft node => do
      return { draft with maxViewDepth := some (← node.count) }
  | "nextQueryId" => some fun draft node => do
      return { draft with nextQueryId := some (← node.count) }
  | "nextViewId" => some fun draft node => do
      return { draft with nextViewId := some (← node.count) }
  | "nextColumnId" => some fun draft node => do
      return { draft with nextColumnId := some (← node.count) }
  | "queryGraph" => some fun draft node => do
      return { draft with queryGraph := some (← graph level QueryNode.ofNode node) }
  | "viewGraph" => some fun draft node => do
      return { draft with viewGraph := some (← graph level ViewNode.ofNode node) }
  | "functions" => some fun draft node => do
      return { draft with functions := some (← set level node) }
  | "parameters" => some fun draft node => do
      return { draft with parameters := some (← set level node) }
  | "dateTimeLiterals" => some fun draft node => do
      return { draft with relativeDates := some (← set level node) }
  | _ => none

def finish (draft : MetadataDraft) : Read Metadata := do
  return {
    version := ← Member.required "version" draft.version
    date := ← Member.required "date" draft.date
    elapsedTime := ← Member.required "elapsedTime" draft.elapsedTime
    source := ← Member.required "source" draft.source
    maxQueryDepth := ← Member.required "maxQueryDepth" draft.maxQueryDepth
    maxViewDepth := ← Member.required "maxViewDepth" draft.maxViewDepth
    nextQueryId := ← Member.required "nextQueryId" draft.nextQueryId
    nextViewId := ← Member.required "nextViewId" draft.nextViewId
    nextColumnId := ← Member.required "nextColumnId" draft.nextColumnId
    queryGraph := ← Member.required "queryGraph" draft.queryGraph
    viewGraph := ← Member.required "viewGraph" draft.viewGraph
    functions := ← Member.required "functions" draft.functions
    parameters := ← Member.required "parameters" draft.parameters
    relativeDates := ← Member.required "dateTimeLiterals" draft.relativeDates }

end MetadataDraft

namespace Metadata

/-- Metadata, where records and lists may be entered at `level` and below. -/
def ofNode (level : Nat) (node : Node) : Read Metadata := do
  let members ← node.members level "struct QueryMeta"
  (← Member.readOnce (MetadataDraft.assign (level - 1)) {} members).finish

end Metadata

end ObjectQuery
