import ObjectQuery.Resolution.Grouping
import ObjectQuery.Resolution.Scope

namespace ObjectQuery

/-! Resolving the fields of a query: their paths, and what may stand where. -/

/-- The part of a query that a field stands in. -/
inductive FieldPlace where
  | select
  | filter
  | groupBy
  | having
  | orderBy
  deriving DecidableEq, Repr

/-- Where a field stands. -/
structure FieldUse where
  place : FieldPlace
  /-- The field is an argument of a call. -/
  isArgument : Bool := false
  /-- The keys that rows are grouped by. -/
  groupKeys : SortedSet String

namespace FieldUse

def ofArguments (use : FieldUse) : FieldUse :=
  { use with isArgument := true }

/-- Paths may pass through objects that are not declared, except in sort keys. -/
def registers (use : FieldUse) : Bool :=
  use.place != .orderBy

def isGrouped (use : FieldUse) (isAggregation : Bool) : Bool :=
  use.place == .having || (use.place == .select && isAggregation)

end FieldUse

namespace Mentions

def addItems (mentions : Mentions) (items : List ListItem) : Mentions :=
  items.foldl (fun mentions item =>
    match item with
    | .literal _ => mentions
    | .parameter name => mentions.addParameter name
    | .relativeDate date => mentions.addRelativeDate date) mentions

end Mentions

namespace Scope

/-- The path of a column, its object known by its own path. -/
def qualify (registers : Bool) (path : Path) : Resolver Q Path := do
  let scope ← get
  let primary := scope.primary
  let started : Path := if path.length = 1 then primary ++ path else path
  match scope.aliases.find? started.parent.key with
  | some object => return object ++ started.getLast?.toList
  | none =>
      let started :=
        if scope.aliases.contains (started.leadingKey 1) then started else primary ++ started
      match scope.walk registers started with
      | none => throw (.unregisteredObject path.render primary.render)
      | some (reached, scope) =>
          set scope
          let object := (scope.aliases.find? reached.parent.key).getD reached.parent
          return object ++ reached.getLast?.toList

end Scope

namespace Field

def resolveColumn (use : FieldUse) (path : Path) (field : Field Q) : Resolver Q (Field Q) := do
  if path.isEmpty then
    return field
  let qualified ← Scope.qualify use.registers path
  let scope ← get
  let primary := scope.primary
  if use.place = .select then
    if !use.isArgument && qualified.length ≤ primary.length then
      throw (.ancestorSelection qualified.render primary.render)
    if !qualified.startsWith primary then
      throw (.siblingSelection qualified.render primary.render)
  let resolved := { field with kind := .column qualified, key := qualified.key }
  let grouped := !use.isArgument && use.isGrouped scope.isAggregation
  if grouped && !Grouping.isKey use.groupKeys primary resolved then
    throw (.ungroupedField qualified.render)
  return resolved

/-- Why a function may not stand where it stands, if it may not. -/
def misplaced? (use : FieldUse) (isAggregation : Bool) (function : String) : Option CallPlace :=
  if function = "fields" then
    if use.isArgument then some .nested
    else if use.place ≠ .select then some .conditional
    else if isAggregation then some .aggregation
    else none
  else if Grouping.isCount function then
    if use.place = .select ∨ use.place = .having then none else some .conditional
  else
    none

def countFault? (function : String) (arguments : List (Field Q)) : Option ArgumentFault :=
  let isName := arguments.head?.all (·.kind.isColumn)
  if function = "count" then
    if 1 < arguments.length then some .notOptional
    else if isName then none
    else some .notName
  else if function = "count_distinct" then
    if arguments.length ≠ 1 then some .notOne
    else if isName then none
    else some .notName
  else
    none

/-- The fields of the object that the argument of a field set belongs to. -/
def resolveFieldSet (name : String) (arguments : List (Field Q)) (field : Field Q) :
    Resolver Q (Field Q) := do
  match arguments with
  | [argument] =>
      match argument.kind with
      | .column (first :: rest) =>
          let scope ← get
          let path := first :: rest
          let started : Path := if path.length = 1 then scope.primary ++ path else path
          match scope.aliases.find? started.parent.key with
          | none => throw (.unknownFieldSetTarget started.render)
          | some object =>
              let qualified : Path := object ++ started.getLast?.toList
              return { field with
                kind := .fieldSet qualified
                key := qualified.key
                aliasName := none }
      | _ => throw (.invalidArguments name .notName)
  | _ => throw (.invalidArguments name .notSingle)

/-- A call with resolved arguments, which may have to be one of a grouping function. -/
def resolveCall (use : FieldUse) (function name : String) (arguments : List (Field Q))
    (field : Field Q) : Resolver Q (Field Q) := do
  let scope ← get
  let resolved := { field with kind := .call name arguments }
  if use.isGrouped scope.isAggregation then
    let aggregated := Grouping.isCount function || Grouping.takesColumns arguments
    let ungrouped? := arguments.find? fun argument =>
      argument.kind.isColumn && argument.key != "" &&
        !Grouping.isKey use.groupKeys scope.primary argument
    match ungrouped? with
    | some argument =>
        if !aggregated then
          throw (.ungroupedField ((argument.kind.path?.getD []).render))
    | none => pure ()
    return { resolved with aggregated }
  else
    return resolved

mutual

/-- A field with its paths resolved. Queries in it are left as they are. -/
def resolve (use : FieldUse) : Field Q → Resolver Q (Field Q)
  | ⟨kind, aliasName, notSelected, aggregated, key, columnId, columnIndex⟩ =>
      resolveKind use kind
        ⟨kind, aliasName, notSelected, aggregated, key, columnId, columnIndex⟩

def resolveKind (use : FieldUse) : FieldKind Q → Field Q → Resolver Q (Field Q)
  | .column path, field => field.resolveColumn use path
  | .call name arguments, field => do
      let function := lowerText name
      modify fun scope => { scope with mentions := scope.mentions.addFunction name }
      if let some place := misplaced? use (← get).isAggregation function then
        throw (.functionNotAllowed name place)
      if function = "fields" then
        field.resolveFieldSet name arguments
      else
        if let some fault := countFault? function arguments then
          throw (.invalidArguments name fault)
        if Grouping.isCount function then
          modify fun scope => { scope with isAggregation := true }
        let arguments ← resolveAll use.ofArguments arguments
        field.resolveCall use function name arguments
  | .fieldSet _, field =>
      if use.isArgument then
        throw (.functionNotAllowed "FIELDS" .nested)
      else if use.place = .select then
        return field
      else
        throw (.functionNotAllowed "FIELDS" .conditional)
  | .parameter name, field => do
      modify fun scope => { scope with mentions := scope.mentions.addParameter name }
      return field
  | .relativeDate date, field => do
      modify fun scope => { scope with mentions := scope.mentions.addRelativeDate date }
      return field
  | .literal (.list items), field => do
      modify fun scope => { scope with mentions := scope.mentions.addItems items }
      return field
  | .literal _, field => return field
  | .subquery _, field => return field

def resolveAll (use : FieldUse) : List (Field Q) → Resolver Q (List (Field Q))
  | [] => return []
  | field :: rest => do
      let field ← field.resolve use
      return field :: (← resolveAll use rest)

end

end Field

end ObjectQuery
