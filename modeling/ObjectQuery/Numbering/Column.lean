import ObjectQuery.Numbering.Session
import ObjectQuery.Query.Display

namespace ObjectQuery

/-!
Numbers of columns. A column has one number wherever it is read; the result of
a call, a field set and a list of related rows have numbers of their own.
-/

/-- Which calls are given numbers. -/
inductive CallPass where
  /-- Those that are no arguments of other calls. -/
  | outermost
  /-- Those of grouping functions. -/
  | aggregated
  deriving DecidableEq, Repr

namespace CallPass

def takes : CallPass → (isArgument isAggregated : Bool) → Bool
  | outermost, isArgument, _ => !isArgument
  | aggregated, _, isAggregated => isAggregated

end CallPass

namespace Field

/-- The number of a field that has none yet, if it is given one. -/
def newId (pass : CallPass) (isArgument : Bool) (field : Field Q) :
    StateM Session (Option Nat) := do
  match field.kind with
  | .column _ => return some (← Session.columnId field.key)
  | .call _ _ =>
      if pass.takes isArgument field.aggregated then
        return some (← Session.takeColumnId)
      else
        return none
  | .fieldSet _ | .subquery _ => return some (← Session.takeColumnId)
  | _ => return none

def numbered (pass : CallPass) (isArgument : Bool) (field : Field Q) :
    StateM Session (Field Q) := do
  match field.columnId with
  | some _ => return field
  | none => return { field with columnId := ← field.newId pass isArgument }

mutual

def assignId (pass : CallPass) (isArgument : Bool) : Field Q → StateM Session (Field Q)
  | ⟨kind, aliasName, notSelected, aggregated, key, columnId, columnIndex⟩ => do
      let field ← numbered pass isArgument
        ⟨kind, aliasName, notSelected, aggregated, key, columnId, columnIndex⟩
      return { field with kind := ← assignKind pass kind }

def assignKind (pass : CallPass) : FieldKind Q → StateM Session (FieldKind Q)
  | .call name arguments => do return .call name (← assignAll pass true arguments)
  | kind => return kind

def assignAll (pass : CallPass) (isArgument : Bool) :
    List (Field Q) → StateM Session (List (Field Q))
  | [] => return []
  | field :: rest => do
      let field ← field.assignId pass isArgument
      return field :: (← assignAll pass isArgument rest)

end

def assignConditions (pass : CallPass) (conditions : List (Condition (Field Q))) :
    StateM Session (List (Condition (Field Q))) :=
  conditions.mapM fun condition => do
    match condition with
    | .operand field => return .operand (← field.assignId pass false)
    | _ => return condition

/-- The first name `expr0`, `expr1` and so on from `counter` that is not taken, and what follows. -/
def freshAlias (taken : List String) : Nat → Nat → String × Nat
  | 0, counter => ("expr" ++ toString counter, counter + 1)
  | attempts + 1, counter =>
      let name := "expr" ++ toString counter
      if taken.contains name then freshAlias taken attempts (counter + 1) else (name, counter + 1)

/--
Fields with names for those that lack one: every call, and every column but the
first with its number. `named` holds the numbers seen.
-/
def nameAll (taken : List String) (named : List (Option Nat)) (counter : Nat) :
    List (Field Q) → List (Field Q)
  | [] => []
  | field :: rest =>
      let named' :=
        if field.aliasName.isNone && field.kind.isColumn then field.columnId :: named else named
      let needsAlias :=
        field.aliasName.isNone &&
          (field.kind.isCall || (field.kind.isColumn && named.contains field.columnId))
      if needsAlias then
        let (aliasName, counter) := freshAlias taken taken.length counter
        { field with aliasName := some aliasName } :: nameAll taken named' counter rest
      else
        field :: nameAll taken named' counter rest

def repeated? (used : List (Option Nat)) : List (Field Q) → Option (Field Q)
  | [] => none
  | field :: rest =>
      if used.contains field.columnId then
        some field
      else
        repeated? (field.columnId :: used) rest

end Field

namespace Statement

/--
The statement with its columns numbered clause by clause. Calls of grouping
functions in the filter of groups come before its other calls.
-/
def assignColumnIds (statement : Statement Q) : StateM Session (Statement Q) := do
  let fields ← Field.assignAll .outermost false statement.fields
  let orderBy ← statement.orderBy.mapM fun order => do
    return { order with field := ← order.field.assignId .outermost false }
  let groupBy ← Field.assignAll .outermost false statement.groupBy
  let filter ← Field.assignConditions .outermost statement.filter
  let having ← Field.assignConditions .aggregated statement.having
  let having ← Field.assignConditions .outermost having
  let fields ← fields.mapM fun field =>
    if field.kind.isCall then field.assignId .aggregated false else pure field
  return { statement with fields, orderBy, groupBy, filter, having }

def nameFields (taken : List String) (statement : Statement Q) : Statement Q :=
  { statement with fields := Field.nameAll taken [] 0 statement.fields }

end Statement

namespace Query

/-- A field in a complaint: its path, or its text where it has none. -/
def fieldName (field : Field Query) : String :=
  match field.kind.path? with
  | some path => path.render
  | none => renderField field

def repetition? (statement : Statement Query) : Option SemanticError :=
  match Field.repeated? [] statement.groupBy with
  | some field => some (.duplicateGroupKey (fieldName field))
  | none =>
      (Field.repeated? [] (statement.orderBy.map (·.field))).map fun field =>
        .duplicateOrderKey (fieldName field)

end Query

end ObjectQuery
