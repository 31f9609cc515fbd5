import ObjectQuery.Query.Fault
import ObjectQuery.Query.Statement
import ObjectQuery.Text.LowerCase

namespace ObjectQuery

/-!
The names that a query may use. A path is resolved segment by segment: a known
beginning gives way to the path it stands for, and an unknown one may be
registered as an object of its own.
-/

/-- Paths of objects by the keys of these paths, and by aliases. -/
abbrev AliasMap := SortedMap String Path

/-- Names outside of paths that a query mentions. -/
structure Mentions where
  functions : SortedSet String := .empty
  parameters : SortedSet String := .empty
  relativeDates : SortedSet String := .empty

namespace Mentions

def addFunction (mentions : Mentions) (name : String) : Mentions :=
  { mentions with functions := SortedSet.add mentions.functions (lowerText name) }

def addParameter (mentions : Mentions) (name : String) : Mentions :=
  { mentions with parameters := SortedSet.add mentions.parameters (lowerText name) }

def addRelativeDate (mentions : Mentions) (date : RelativeDate) : Mentions :=
  { mentions with
    relativeDates := SortedSet.add mentions.relativeDates (upperText date.keyword) }

end Mentions

/-- What is known of a query while its names are resolved. -/
structure Scope (Q : Type) where
  objects : List (SourceObject Q)
  aliases : AliasMap
  isAggregation : Bool
  mentions : Mentions

/-- Steps of resolution, which keep what is known when they fail. -/
abbrev Resolver (Q : Type) := EStateM SemanticError (Scope Q)

/-- Where a walk along a path ends. -/
inductive Walk (Q : Type) where
  | arrived (path : Path) (scope : Scope Q)
  /-- The path goes on from an object that is not registered. -/
  | unregistered
  | endless

namespace Scope

def primary (scope : Scope Q) : Path :=
  match scope.objects with
  | [] => []
  | object :: _ => object.path

def name (scope : Scope Q) (name : String) (path : Path) : Scope Q :=
  { scope with aliases := scope.aliases.insert name path }

def register (scope : Scope Q) (path : Path) : Scope Q :=
  { scope.name path.key path with
    objects := scope.objects ++ [{ path, key := path.key }] }

@[simp]
theorem find?_register (scope : Scope Q) (path : Path) :
    (scope.register path).aliases.find? path.key = some path := by
  simp [register, Scope.name]

/-- A path with its first segment replaced by what it stands for. -/
def expandFirst (scope : Scope Q) (path : Path) : Path :=
  match scope.aliases.find? (path.leadingKey 1) with
  | some qualified => qualified ++ path.drop 1
  | none => path

/--
Walks along a path, `index` being the last position of the beginning looked at.
The steps are counted, for a replacement may be longer than what it replaces.
-/
def walkWithin (registers : Bool) : Nat → Nat → Path → Scope Q → Walk Q
  | 0, _, _, _ => .endless
  | steps + 1, index, path, scope =>
      if index + 1 < path.length then
        let beginning : Path := path.take (index + 1)
        match scope.aliases.find? beginning.key with
        | some qualified =>
            walkWithin registers steps (index + 1) (qualified ++ path.drop (index + 1)) scope
        | none =>
            if registers then
              walkWithin registers steps (index + 1) path (scope.register beginning)
            else
              .unregistered
      else
        .arrived path scope

/--
Steps that a walk never exceeds. A name with `n` dots can stand for beginnings
of at most `n + 1` segments, so each name lengthens the path at most `n + 1`
times; objects registered on the way do not lengthen it.
-/
def walkBound (aliases : AliasMap) (path : Path) : Nat :=
  aliases.entries.foldr
    (fun entry bound => (entry.1.toList.count '.' + 1) * entry.2.length + bound) (path.length + 1)

/-- Walks along a path to its end, or to an object that may not be registered. -/
def walk (registers : Bool) (path : Path) (scope : Scope Q) : Option (Path × Scope Q) :=
  match walkWithin registers (walkBound scope.aliases path) 0 path scope with
  | .arrived path scope => some (path, scope)
  | .unregistered => none
  | .endless => some (path, scope)

end Scope

end ObjectQuery
