import ObjectQuery.Collection.SortedMap
import ObjectQuery.Query.Field

namespace ObjectQuery

/-! Fields of grouped rows: grouping functions and grouping keys. -/

namespace Grouping

def isCount (name : String) : Bool :=
  name.toLower == "count" || name.toLower == "count_distinct"

mutual

def counts : Field Q → Bool
  | ⟨kind, _, _, _, _, _, _⟩ => kindCounts kind

def kindCounts : FieldKind Q → Bool
  | .call name arguments => isCount name || anyCounts arguments
  | _ => false

def anyCounts : List (Field Q) → Bool
  | [] => false
  | field :: rest => counts field || anyCounts rest

end

/--
Whether a call with the given arguments is applied to groups: it takes columns,
and no other calls.
-/
def takesColumns (arguments : List (Field Q)) : Bool :=
  arguments.any (·.kind.isColumn) && !arguments.any (·.kind.isCall)

/-- Whether the field is a grouping key, or its alias names one. -/
def isKey (keys : SortedSet String) (primary : Path) (field : Field Q) : Bool :=
  SortedMap.contains keys field.key ||
    field.aliasName.any fun aliasName => SortedMap.contains keys (Path.key (primary ++ [aliasName]))

end Grouping

end ObjectQuery
