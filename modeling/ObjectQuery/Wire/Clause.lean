import ObjectQuery.Query.Statement
import ObjectQuery.Wire.Reader

namespace ObjectQuery

/-! Reading objects, sort keys, row bounds and announced uses. Names may stand once only. -/

namespace SourceObject

def assign (level : Nat) (query : Node → Read Q) (name : String) :
    Option (SourceObject Q → Node → Read (SourceObject Q)) :=
  match name with
  | "name" => some fun object node => do return { object with path := ← node.strings level }
  | "aliasName" => some fun object node => do
      return { object with aliasName := ← node.orNull Node.string }
  | "key" => some fun object node => do return { object with key := ← node.string }
  | "hasConditions" => some fun object node => do
      return { object with hasConditions := ← node.flag }
  | "innerJoin" => some fun object node => do return { object with innerJoin := ← node.flag }
  | "viewId" => some fun object node => do
      return { object with viewId := ← node.orNull Node.count }
  | "parentViewId" => some fun object node => do
      return { object with parentViewId := ← node.orNull Node.count }
  | "perObjectQuery" => some fun object node => do
      return { object with plan := ← node.orNull query }
  | _ => none

end SourceObject

/-- A sort key of which some members have been read. -/
structure OrderDraft (Q : Type) where
  field : Option (Field Q) := none
  descending : Bool := false
  nullsLast : Bool := false

namespace OrderDraft

def assign (field : Node → Read (Field Q)) (name : String) :
    Option (OrderDraft Q → Node → Read (OrderDraft Q)) :=
  match name with
  | "field" => some fun draft node => do return { draft with field := some (← field node) }
  | "desc" => some fun draft node => do return { draft with descending := ← node.flag }
  | "nullsLast" => some fun draft node => do return { draft with nullsLast := ← node.flag }
  | _ => none

def finish (draft : OrderDraft Q) : Read (OrderKey Q) := do
  return ⟨← Member.required "field" draft.field, draft.descending, draft.nullsLast⟩

end OrderDraft

/-- Row bounds of which some members have been read. -/
structure BoundsDraft where
  offset : Option Int64 := none
  limit : Option Int64 := none
  offsetParameter : Option String := none
  limitParameter : Option String := none

namespace BoundsDraft

def assign (name : String) : Option (BoundsDraft → Node → Read BoundsDraft) :=
  match name with
  | "offset" => some fun draft node => do return { draft with offset := ← node.orNull Node.int }
  | "limit" => some fun draft node => do return { draft with limit := ← node.orNull Node.int }
  | "offsetParamName" => some fun draft node => do
      return { draft with offsetParameter := ← node.orNull Node.string }
  | "limitParamName" => some fun draft node => do
      return { draft with limitParameter := ← node.orNull Node.string }
  | _ => none

def bound (count : Option Int64) (parameter : Option String) : Option RowBound :=
  (parameter.map .parameter) <|> (count.map .count)

def finish (draft : BoundsDraft) : RowBounds :=
  ⟨bound draft.offset draft.offsetParameter, bound draft.limit draft.limitParameter⟩

end BoundsDraft

namespace RowBounds

def ofNode (level : Nat) (node : Node) : Read RowBounds := do
  let members ← node.members level "struct OffsetAndLimitWire"
  return (← Member.readOnce BoundsDraft.assign {} members).finish

end RowBounds

namespace AccessClause

def assign (name : String) : Option (AccessClause → Node → Read AccessClause) :=
  match name with
  | "view" => some fun access node => do return { access with view := ← node.flag }
  | "reference" => some fun access node => do return { access with reference := ← node.flag }
  | "update" => some fun access node => do return { access with update := ← node.flag }
  | "updateTracking" => some fun access node => do
      return { access with updateTracking := ← node.flag }
  | "updateViewstat" => some fun access node => do
      return { access with updateViewstat := ← node.flag }
  | _ => none

def ofNode (level : Nat) (node : Node) : Read AccessClause := do
  Member.readOnce assign {} (← node.members level "struct ForClause")

end AccessClause

end ObjectQuery
