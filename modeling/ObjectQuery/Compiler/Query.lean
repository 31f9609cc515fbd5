import ObjectQuery.Compiler.Statement

namespace ObjectQuery

/-!
Compiling a query with the queries nested in it. Lists of related rows share the
numbers of the query around them; queries in conditions have their own.
-/

namespace Statement

/-- The statement with another query for the field at `index`. -/
def replaceNested (statement : Statement Query) (index : Nat) (query : Query) : Statement Query :=
  { statement with
    fields := statement.fields.modify index fun field => { field with kind := .subquery query } }

end Statement

namespace Query

/-- How many queries are nested in each other, this one included. -/
def height (query : Query) : Nat :=
  query.fold fun statement => statement.nested.foldl max 0 + 1

/-- The query that the field at `index` stands for. -/
def nestedAt? (statement : Statement Query) (index : Nat) : Option Query :=
  statement.fields[index]?.bind (·.kind.query?)

/--
Compiles a statement and the queries nested in it, first those among its fields
and then those among its conditions. The latter are numbered apart. Returned
with it is the query around it, which may have to return more columns.
-/
def compileWithin : Nat → QueryPlace → Nat → AliasMap → Option (Statement Query) →
    Statement Query → Compilation (Statement Query × Option (Statement Query))
  | 0, _, _, _, _, _ => throw (.internal .nestingBound)
  | levels + 1, place, depth, inherited, parent, statement => do
      let (statement, parent, aliases) ← statement.compileOwn place depth inherited parent
      let selectNested (statement : Statement Query) (index : Nat) :
          Compilation (Statement Query) := do
        match nestedAt? statement index with
        | none => return statement
        | some query =>
            let (body, around) ←
              compileWithin levels .select (depth + 1) aliases (some statement) query.body
            return (around.getD statement).replaceNested index ⟨body⟩
      let statement ← (List.range statement.fields.length).foldlM selectNested statement
      statement.mentionBounds
      let compileOperand (condition : Condition (Field Query)) :
          Compilation (Condition (Field Query)) := do
        match condition.operand?.bind fun field => field.kind.query?.map (field, ·) with
        | none => return condition
        | some (field, query) =>
            let (body, _) ←
              compileWithin levels .conditional (depth + 1) .empty (some statement) query.body
            return .operand { field with kind := .subquery ⟨body⟩ }
      let primaryLength := (statement.objects.head?.map (·.path.length)).getD 0
      let (filter, having) ← Compilation.apart { depthOffset := primaryLength } do
        let filter ← statement.filter.mapM compileOperand
        return (filter, ← statement.having.mapM compileOperand)
      return ({ statement with filter, having }, parent)

def compileNested (place : QueryPlace) (depth : Nat) (parent : Option (Statement Query))
    (query : Query) : Compilation (Query × Option (Statement Query)) := do
  let (body, parent) ← compileWithin query.height place depth .empty parent query.body
  return (⟨body⟩, parent)

/-- A compiled query and what is known of it, with a limit on queries nested in each other. -/
def compile (limit : Option Nat) (query : Query) : Except CompileError (Query × Metadata) :=
  match query.compileNested .primary 1 none { limit } with
  | .ok (query, _) session => .ok (query, session.metadata)
  | .error error _ => .error error

end Query

end ObjectQuery
