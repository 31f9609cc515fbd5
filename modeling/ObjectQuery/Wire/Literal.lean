import ObjectQuery.Query.Field
import ObjectQuery.Wire.Reader

namespace ObjectQuery

/-! Reading instants and literals from their written form. -/

namespace Instant

def ofWritten (text : String) : Read Instant :=
  match Timestamp.read Timestamp.strict text with
  | .ok instant => .ok instant
  | .error fault => Read.misfit (.badInstant text fault)

def ofNode (node : Node) : Read Instant := do
  ofWritten (← node.string)

def ofLooseNode (node : Node) : Read Instant :=
  match node with
  | .text _ => do
      match Timestamp.read Timestamp.loose (← node.string) with
      | .ok instant => return instant
      | .error fault => Read.misfit (.badDate fault)
  | _ => node.mismatch "an RFC 3339 formatted date and time string"

def assignEnd (name : String) : Option (Option String × Option String → Node →
    Read (Option String × Option String)) :=
  match name with
  | "start" => some fun texts node => do return (some (← node.string), texts.2)
  | "end" => some fun texts node => do return (texts.1, some (← node.string))
  | _ => none

def rangeOfNode (level : Nat) (node : Node) : Read (Instant × Instant) := do
  let members ← node.members level "struct RangeText"
  let (start, stop) ← Member.readOnce assignEnd (none, none) members
  let start ← Member.required "start" start
  let stop ← Member.required "end" stop
  return (← ofWritten start, ← ofWritten stop)

end Instant

namespace Literal

def typeNames : List String :=
  ["Null", "Int", "Float", "Bool", "String", "Blob", "Date", "DateTime", "Time",
    "DateTimeRange", "List"]

def itemOfField (field : Field Q) : Read ListItem :=
  match field.kind.listItem? with
  | some item => .ok item
  | none => Read.misfit (.itemOfType field.kind.typeName)

/-- The value of a literal of a type; `fields` reads the items of a value list. -/
def ofNode (level : Nat) (fields : Node → Read (List (Field Q))) (typeName : String)
    (node : Node) : Read Literal :=
  match typeName with
  | "Int" => node.int.map int
  | "Float" => (node.float level).map float
  | "Bool" => node.flag.map bool
  | "String" => node.string.map text
  | "Blob" => (node.listOf level Node.byte).map bytes
  | "Date" => (Instant.ofNode node).map date
  | "DateTime" => (Instant.ofNode node).map dateTime
  | "Time" => (Instant.ofNode node).map time
  | "DateTimeRange" =>
      (Instant.rangeOfNode level node).map fun (start, stop) => dateTimeRange start stop
  | "List" => do
      let fields ← fields node
      return list (← fields.mapM itemOfField)
  | _ => do
      node.nothing
      return null

end Literal

end ObjectQuery
