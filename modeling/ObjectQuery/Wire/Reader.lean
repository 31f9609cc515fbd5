import ObjectQuery.Collection.SortedMap
import ObjectQuery.Wire.Document
import ObjectQuery.Wire.Fault

namespace ObjectQuery

/-!
Reading the values of a document by the type that is expected. Lists and
records may be entered at a positive level only, which bounds their nesting.
-/

abbrev Read (α : Type) := Except WireError α

namespace Read

def malformed (line : Nat) : Read α :=
  .error (.malformed line)

def misfit (fault : Misfit) : Read α :=
  .error (.misfit fault)

def passed (result : Except Nat Unit) : Read Unit :=
  result.mapError .malformed

end Read

namespace Spelling

def read : Spelling → Read String
  | sound text => .ok text
  | flawed line | broken line _ => Read.malformed line

end Spelling

namespace Node

/-- The complaint about a value that is not what is expected. -/
def mismatch (expected : String) (node : Node) : Read α :=
  let wrong (found : Found) : Read α := Read.misfit (.wrongType found expected)
  match node with
  | null => wrong .null
  | bool value => wrong (.bool value)
  | number (.int value) _ => wrong (.int value)
  | number (.float value) _ => wrong (.float value)
  | number .outOfRange line => Read.malformed line
  | text (.sound value) => wrong (.text value)
  | text (.flawed line) | text (.broken line _) => Read.malformed line
  | list _ _ => wrong .list
  | record _ _ => wrong .record
  | broken line | unmarked line => Read.malformed line

/-- A whole number below a bound, which is what `expected` names. -/
def natural (expected : String) (bound : Nat) (node : Node) : Read Nat :=
  match node with
  | number (.int value) _ =>
      if 0 ≤ value ∧ value < bound then
        .ok value.toNat
      else
        Read.misfit (.wrongValue (.int value) expected)
  | _ => node.mismatch expected

def count (node : Node) : Read Nat :=
  node.natural "usize" UInt64.size

def byte (node : Node) : Read UInt8 :=
  (node.natural "u8" UInt8.size).map Nat.toUInt8

def int (node : Node) : Read Int64 :=
  match node with
  | number (.int value) _ =>
      if Int64.minValue.toInt ≤ value ∧ value ≤ Int64.maxValue.toInt then
        .ok (Int64.ofInt value)
      else
        Read.misfit (.wrongValue (.int value) "i64")
  | _ => node.mismatch "i64"

def flag (node : Node) : Read Bool :=
  match node with
  | bool value => .ok value
  | _ => node.mismatch "a boolean"

def string (node : Node) : Read String :=
  match node with
  | text spelling => spelling.read
  | _ => node.mismatch "a string"

def nothing (node : Node) : Read Unit :=
  match node with
  | null => .ok ()
  | _ => node.mismatch "unit"

def orNull (read : Node → Read α) (node : Node) : Read (Option α) :=
  match node with
  | null => .ok none
  | _ => (read node).map some

def floatExpected : String :=
  "a number, \"NaN\", \"Infinity\" or \"-Infinity\""

/-- A number, or the name of one that no number writes. -/
def float (level : Nat) (node : Node) : Read Float :=
  match node with
  | number (.int value) _ => .ok (Float.ofInt value)
  | number (.float value) _ => .ok value
  | text (.sound "NaN") => .ok (0.0 / 0.0)
  | text (.sound "Infinity") => .ok (1.0 / 0.0)
  | text (.sound "-Infinity") => .ok (-1.0 / 0.0)
  | text (.sound other) => Read.misfit (.wrongValue (.text other) floatExpected)
  | list line _ | record line _ =>
      if level = 0 then Read.malformed line else node.mismatch floatExpected
  | _ => node.mismatch floatExpected

/-- The items of a list, which may be entered at a positive level. -/
def items (level : Nat) (node : Node) : Read (List Node) :=
  match node with
  | list line items => if level = 0 then Read.malformed line else .ok items
  | _ => node.mismatch "a sequence"

/-- The members of a record, which may be entered at a positive level. -/
def members (level : Nat) (expected : String) (node : Node) : Read (List Member) :=
  match node with
  | record line members => if level = 0 then Read.malformed line else .ok members
  | _ => node.mismatch expected

def listOf (level : Nat) (read : Node → Read α) (node : Node) : Read (List α) := do
  (← node.items level).mapM read

def strings (level : Nat) (node : Node) : Read (List String) :=
  node.listOf level string

def refuseList (node : Node) : Read α :=
  match node with
  | list line _ => Read.malformed line
  | _ => node.mismatch "a sequence"

def refuseRecord (expected : String) (node : Node) : Read α :=
  match node with
  | record line _ => Read.malformed line
  | _ => node.mismatch expected

def marked (node : Node) : Read Node :=
  match node with
  | unmarked line => Read.malformed line
  | _ => .ok node

end Node

namespace Member

/--
What members make of a state. `assign` says of each name how its value is read,
or that it is passed over, or what is wrong with it.
-/
def readAll (assign : σ → String → Read (Option (Node → Read σ))) :
    σ → List Member → Read σ
  | state, [] => .ok state
  | _, unnamed line :: _ => Read.malformed line
  | state, entry _ name value :: rest => do
      let name ← name.read
      match ← assign state name with
      | some read => readAll assign (← read (← value.marked)) rest
      | none =>
          Read.passed value.pass
          readAll assign state rest

/--
What members make of a state, each name being read once at most and unknown
names being passed over.
-/
def readOnce (assign : String → Option (σ → Node → Read σ)) (start : σ)
    (members : List Member) : Read σ :=
  let step (state : σ × List String) (name : String) :
      Read (Option (Node → Read (σ × List String))) :=
    match assign name with
    | none => .ok none
    | some read =>
        if state.2.contains name then
          Read.misfit (.repeatedMember name)
        else
          .ok (some fun node => (read state.1 node).map fun next => (next, name :: state.2))
  (readAll step (start, []) members).map (·.1)

def required (name : String) : Option α → Read α
  | some value => .ok value
  | none => Read.misfit (.missingMember name)

/-- The number that the name of a member writes; `start` is the place after its opening quote. -/
def number (start : Place) : Read Nat :=
  if NumberToken.isAhead start then
    match NumberToken.read start with
    | .error line => Read.malformed line
    | .ok (token, rest) => do
        let number ← (Node.number token start.line).count
        if rest.ahead.head? = some '"' then
          return number
        else
          Read.malformed rest.reached
  else
    Read.malformed start.line

/-- Members named by numbers, of which the last with a name counts. -/
def readNumbered (read : Node → Read α) :
    SortedMap Nat α → List Member → Read (SortedMap Nat α)
  | map, [] => .ok map
  | _, unnamed line :: _ => Read.malformed line
  | map, entry start _ value :: rest => do
      let number ← number start
      let value ← read value
      readNumbered read (map.insert number value) rest

end Member

end ObjectQuery
