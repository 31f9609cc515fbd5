import ObjectQuery.Wire.Clause
import ObjectQuery.Wire.Field
import ObjectQuery.Wire.Metadata

namespace ObjectQuery

/-! Reading queries and their parts from documents. -/

/-- What reads the parts of a query, one level below the query. -/
structure PartReaders where
  fields : Node → Read (List (Field Query))
  conditions : Node → Read (List (Condition (Field Query)))
  objects : Node → Read (List (SourceObject Query))
  orderKeys : Node → Read (List (OrderKey Query))

namespace Statement

/-- How each member of a query is read; records and lists may be entered at `level` and below. -/
def assign (level : Nat) (read : PartReaders) (name : String) :
    Option (Statement Query → Node → Read (Statement Query)) :=
  match name with
  | "id" => some fun body node => do return { body with id := ← node.count }
  | "parentId" => some fun body node => do
      return { body with parentId := ← node.orNull Node.count }
  | "fields" => some fun body node => do return { body with fields := ← read.fields node }
  | "from" => some fun body node => do return { body with objects := ← read.objects node }
  | "where" => some fun body node => do return { body with filter := ← read.conditions node }
  | "groupBy" => some fun body node => do return { body with groupBy := ← read.fields node }
  | "having" => some fun body node => do return { body with having := ← read.conditions node }
  | "orderBy" => some fun body node => do return { body with orderBy := ← read.orderKeys node }
  | "offsetAndLimit" => some fun body node => do
      return { body with bounds := ← RowBounds.ofNode level node }
  | "for" => some fun body node => do
      return { body with access := ← AccessClause.ofNode level node }
  | "isAggregation" => some fun body node => do
      return { body with isAggregation := ← node.flag }
  | "isCorrelated" => some fun body node => do return { body with isCorrelated := ← node.flag }
  | "postProcessWhere" => some fun body node => do
      return { body with residual := ← read.conditions node }
  | "meta" => some fun body node => do
      return { body with metadata := ← node.orNull (Metadata.ofNode level) }
  | _ => none

end Statement

namespace Query

/-- Records and lists of a document that may be open at once. -/
def maxLevel : Nat := 127

/-! The readers take the number of records and lists that may still be entered. -/

mutual

def fieldOfNode : Nat → Node → Read (Field Query)
  | 0, node => node.refuseRecord "a field info object"
  | level + 1, node => do
      let members ← node.members (level + 1) "a field info object"
      let assign := FieldDraft.assign level (fieldsOfNode level) (ofNode level)
      (← Member.readAll assign {} members).finish

def fieldsOfNode : Nat → Node → Read (List (Field Query))
  | 0, node => node.refuseList
  | level + 1, node => node.listOf (level + 1) (fieldOfNode level)

def conditionOfNode : Nat → Node → Read (Condition (Field Query))
  | 0, node => node.refuseRecord "a condition object"
  | level + 1, node => do
      let members ← node.members (level + 1) "a condition object"
      (← Member.readAll (ConditionDraft.assign (fieldOfNode level)) {} members).finish

def conditionsOfNode : Nat → Node → Read (List (Condition (Field Query)))
  | 0, node => node.refuseList
  | level + 1, node => node.listOf (level + 1) (conditionOfNode level)

def objectOfNode : Nat → Node → Read (SourceObject Query)
  | 0, node => node.refuseRecord "struct ObjectInfo"
  | level + 1, node => do
      let members ← node.members (level + 1) "struct ObjectInfo"
      Member.readOnce (SourceObject.assign level (ofNode level)) { path := [] } members

def objectsOfNode : Nat → Node → Read (List (SourceObject Query))
  | 0, node => node.refuseList
  | level + 1, node => node.listOf (level + 1) (objectOfNode level)

def orderKeyOfNode : Nat → Node → Read (OrderKey Query)
  | 0, node => node.refuseRecord "struct OrderByInfo"
  | level + 1, node => do
      let members ← node.members (level + 1) "struct OrderByInfo"
      (← Member.readOnce (OrderDraft.assign (fieldOfNode level)) {} members).finish

def orderKeysOfNode : Nat → Node → Read (List (OrderKey Query))
  | 0, node => node.refuseList
  | level + 1, node => node.listOf (level + 1) (orderKeyOfNode level)

def ofNode : Nat → Node → Read Query
  | 0, node => node.refuseRecord "struct Query"
  | level + 1, node => do
      let members ← node.members (level + 1) "struct Query"
      let readers : PartReaders :=
        { fields := fieldsOfNode level
          conditions := conditionsOfNode level
          objects := objectsOfNode level
          orderKeys := orderKeysOfNode level }
      return ⟨← Member.readOnce (Statement.assign level readers) {} members⟩

end

def decodeAs (read : Nat → Node → Read α) (text : String) : Read α := do
  let (node, rest) := Document.scan text
  let value ← read maxLevel node
  match rest.map Place.skipSpace with
  | none => return value
  | some place =>
      if place.ahead.isEmpty then
        return value
      else
        Read.malformed place.line

def decode (text : String) : Read Query :=
  decodeAs ofNode text

def decodeField (text : String) : Read (Field Query) :=
  decodeAs fieldOfNode text

def decodeConditions (text : String) : Read (List (Condition (Field Query))) :=
  decodeAs conditionsOfNode text

end Query

end ObjectQuery
