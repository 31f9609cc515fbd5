import ObjectQuery.Resolution.Scope

namespace ObjectQuery

/-! Resolving the objects that a query reads from. -/

/-- How a query is reached from the query around it. -/
inductive QueryPlace where
  /-- The query stands alone. -/
  | primary
  /-- A list of related rows among the selected fields. -/
  | select
  /-- An operand of a comparison. -/
  | conditional
  deriving DecidableEq, Repr

namespace Path

def withLast (path : Path) (segment : String) : Path :=
  if path.isEmpty then [] else path.parent ++ [segment]

end Path

namespace Scope

/--
Makes the names of an object stand for its path: its key, its alias, and its
alias after the path of its parent.
-/
def nameObject (scope : Scope Q) (path : Path) (aliasName : Option String) : Scope Q :=
  let scope := scope.name path.key path
  match aliasName with
  | none => scope
  | some aliasName =>
      (scope.name (lowerText aliasName) path).name (path.withLast aliasName).key path

def resolveObject (scope : Scope Q) (object : SourceObject Q) : SourceObject Q × Scope Q :=
  let expanded := scope.expandFirst object.path
  let (path, scope) := (scope.walk true expanded).getD (expanded, scope)
  ({ object with path, key := path.key }, scope.nameObject path object.aliasName)

end Scope

namespace SourceObject

/-- An object whose path begins at the primary object, unless its first segment is known. -/
def qualify (aliases : AliasMap) (primary : Path) (object : SourceObject Q) : SourceObject Q :=
  if aliases.contains (object.path.leadingKey 1) then
    object
  else
    { object with path := primary ++ object.path }

/-- The aliases in use with one more, which must be new. -/
def addAlias (used : SortedSet String) : Option String → Resolver Q (SortedSet String)
  | none => return used
  | some aliasName =>
      if SortedMap.contains used (lowerText aliasName) then
        throw (.duplicateObjectAlias aliasName)
      else
        return SortedSet.add used (lowerText aliasName)

/--
The declared objects with their paths resolved. Objects that their paths pass
through are appended to those of the scope.
-/
def resolveAll (primary : Path) (ownPrimary : Bool) (used : SortedSet String) :
    List (SourceObject Q) → Resolver Q (List (SourceObject Q))
  | [] => return []
  | object :: rest => do
      let scope ← get
      let object := if ownPrimary then object else object.qualify scope.aliases primary
      let (object, scope) := scope.resolveObject object
      set scope
      let used ← addAlias used object.aliasName
      return object :: (← resolveAll primary false used rest)

end SourceObject

namespace Scope

/--
Resolves the objects of the scope. The first object keeps its path, except in a
list of related rows, where it belongs to the primary object around it.
-/
def resolveObjects (place : QueryPlace) (primary : Path) : Resolver Q Unit := do
  let declared := (← get).objects
  modify fun scope => { scope with objects := [] }
  let resolved ← SourceObject.resolveAll primary (place != .select) .empty declared
  modify fun scope => { scope with objects := resolved ++ scope.objects }

end Scope

end ObjectQuery
