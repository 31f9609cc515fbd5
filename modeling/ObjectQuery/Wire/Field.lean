import ObjectQuery.Condition.Basic
import ObjectQuery.Wire.Literal

namespace ObjectQuery

/-!
Reading fields and entries of condition lists. Of members with the same name the
last counts, and some can be read only after the member that gives the type.
-/

/-- The name of a field as it is read: a path, or a single word. -/
inductive NameDraft where
  | path (segments : Path)
  | word (text : String)

namespace NameDraft

def path? : NameDraft → Option Path
  | path segments => some segments
  | word _ => none

def word? : NameDraft → Option String
  | word text => some text
  | path _ => none

end NameDraft

/-- The value of a field as it is read. -/
inductive ValueDraft where
  | literal (value : Literal)
  | count (value : Int64)

namespace ValueDraft

def literal? : ValueDraft → Option Literal
  | literal value => some value
  | count _ => none

def count? : ValueDraft → Option Int64
  | count value => some value
  | literal _ => none

end ValueDraft

/-- A field of which some members have been read. -/
structure FieldDraft (Q : Type) where
  typeName : Option String := none
  name : Option NameDraft := none
  value : Option ValueDraft := none
  arguments : List (Field Q) := []
  subquery : Option Q := none
  aliasName : Option String := none
  notSelected : Bool := false
  aggregated : Bool := false
  key : String := ""
  columnId : Option Nat := none
  columnIndex : Option Nat := none

namespace FieldDraft

def memberNames : List String :=
  ["type", "name", "value", "aliasName", "parameters", "subQuery", "notSelected",
    "aggregated", "key", "columnId", "colIndex"]

/-- The type, which has to come before the member with the name. -/
def typeBefore (draft : FieldDraft Q) (name : String) : Read String :=
  match draft.typeName with
  | some typeName => .ok typeName
  | none => Read.misfit (.earlyMember name "type")

/-- How the name of a field is read: as a path where the type asks for one. -/
def readName (level : Nat) (typeName : String) (node : Node) : Read NameDraft :=
  if typeName = "Field" ∨ typeName = "FieldSet" then
    (node.strings level).map .path
  else
    node.string.map .word

/-- How the value of a field is read, by its type. -/
def readValue (level : Nat) (fields : Node → Read (List (Field Q))) (typeName : String)
    (node : Node) : Read ValueDraft :=
  if typeName = "DateTimeLiteralName" then
    node.int.map .count
  else if Literal.typeNames.contains typeName then
    (Literal.ofNode level fields typeName node).map .literal
  else
    Read.misfit (.valueOfType typeName)

/-- How each member is read. The last member with a name counts. -/
def assign (level : Nat) (fields : Node → Read (List (Field Q))) (query : Node → Read Q)
    (draft : FieldDraft Q) (name : String) : Read (Option (Node → Read (FieldDraft Q))) :=
  let reader (read : Node → Read (FieldDraft Q)) : Read (Option (Node → Read (FieldDraft Q))) :=
    .ok (some read)
  match name with
  | "type" => reader fun node => do return { draft with typeName := some (← node.string) }
  | "name" => do
      let typeName ← draft.typeBefore name
      reader fun node => do return { draft with name := some (← readName level typeName node) }
  | "value" => do
      let typeName ← draft.typeBefore name
      reader fun node => do
        return { draft with value := some (← readValue level fields typeName node) }
  | "aliasName" => reader fun node => do return { draft with aliasName := some (← node.string) }
  | "parameters" => reader fun node => do return { draft with arguments := ← fields node }
  | "subQuery" => reader fun node => do return { draft with subquery := some (← query node) }
  | "notSelected" => reader fun node => do return { draft with notSelected := ← node.flag }
  | "aggregated" => reader fun node => do return { draft with aggregated := ← node.flag }
  | "key" => reader fun node => do return { draft with key := ← node.string }
  | "columnId" => reader fun node => do return { draft with columnId := some (← node.count) }
  | "colIndex" => reader fun node => do return { draft with columnIndex := some (← node.count) }
  | _ => Read.misfit (.unknownMember name memberNames)

def kind (draft : FieldDraft Q) (typeName : String) : Read (FieldKind Q) :=
  let path := Member.required "name" (draft.name.bind NameDraft.path?)
  let word := Member.required "name" (draft.name.bind NameDraft.word?)
  match typeName with
  | "Field" => path.map .column
  | "FieldSet" => path.map .fieldSet
  | "Function" => word.map fun name => .call name draft.arguments
  | "SubQuery" => (Member.required "subQuery" draft.subquery).map .subquery
  | "ParameterizedValue" => word.map .parameter
  | "DateTimeLiteralName" =>
      word.map fun name => .relativeDate ⟨name, (draft.value.bind ValueDraft.count?).getD 0⟩
  | "Null" => .ok (.literal .null)
  | _ =>
      if Literal.typeNames.contains typeName then
        (Member.required "value" (draft.value.bind ValueDraft.literal?)).map .literal
      else
        Read.misfit (.unknownFieldType typeName)

def finish (draft : FieldDraft Q) : Read (Field Q) := do
  let typeName ← Member.required "type" draft.typeName
  return {
    kind := ← draft.kind typeName
    aliasName := draft.aliasName
    notSelected := draft.notSelected
    aggregated := draft.aggregated
    key := draft.key
    columnId := draft.columnId
    columnIndex := draft.columnIndex }

end FieldDraft

/-- An entry of a condition list of which some members have been read. -/
structure ConditionDraft (Q : Type) where
  entry : Option (Condition Unit) := none
  operand : Option (Field Q) := none

namespace ConditionDraft

/-- The entry that a name stands for, its operand left out. -/
def entryNamed (name : String) : Read (Condition Unit) :=
  match name with
  | "Noop" => .ok .noop
  | "Unknown" => .ok .unknown
  | "FieldInfo" => .ok (.operand ())
  | _ =>
      match Operator.ofName? name with
      | some operator => .ok (.operator operator)
      | none => Read.misfit (.unknownOperator name)

/-- How each member is read. The last member with a name counts. -/
def assign (field : Node → Read (Field Q)) (draft : ConditionDraft Q) (name : String) :
    Read (Option (Node → Read (ConditionDraft Q))) :=
  match name with
  | "opcode" =>
      .ok (some fun node => do
        return { draft with entry := some (← entryNamed (← node.string)) })
  | "value" =>
      match draft.entry with
      | some (.operand ()) =>
          .ok (some fun node => do return { draft with operand := some (← field node) })
      | some _ => Read.misfit .valueOfOperator
      | none => Read.misfit (.earlyMember "value" "opcode")
  | _ => Read.misfit (.unknownMember name ["opcode", "value"])

def finish (draft : ConditionDraft Q) : Read (Condition (Field Q)) := do
  match ← Member.required "opcode" draft.entry with
  | .operand () => (Member.required "value" draft.operand).map .operand
  | .operator operator => return .operator operator
  | .noop => return .noop
  | .unknown => return .unknown

end ConditionDraft

end ObjectQuery
