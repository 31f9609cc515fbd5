import ObjectQuery.Query.Literal
import ObjectQuery.Query.Path

namespace ObjectQuery

/-!
Fields: what a query selects, compares, groups by, sorts by and passes to
functions. The type of nested queries is left open.
-/

mutual

/-- What a field stands for. -/
inductive FieldKind (Q : Type) where
  | column (path : Path)
  | fieldSet (path : Path)
  | call (name : String) (arguments : List (Field Q))
  | subquery (query : Q)
  | literal (value : Literal)
  | parameter (name : String)
  | relativeDate (date : RelativeDate)

/-- A field and what is known of it. -/
structure Field (Q : Type) where
  kind : FieldKind Q
  aliasName : Option String := none
  /-- The field is read but not selected. -/
  notSelected : Bool := false
  /-- The field is the result of a grouping function. -/
  aggregated : Bool := false
  /-- The key of the path of a column or a field set. -/
  key : String := ""
  columnId : Option Nat := none
  /-- The place of the column among those that its object returns. -/
  columnIndex : Option Nat := none

end

namespace FieldKind

def path? : FieldKind Q → Option Path
  | column path | fieldSet path => some path
  | _ => none

def arguments : FieldKind Q → List (Field Q)
  | call _ arguments => arguments
  | _ => []

def isColumn : FieldKind Q → Bool
  | column _ => true
  | _ => false

def isCall : FieldKind Q → Bool
  | call _ _ => true
  | _ => false

def isSubquery : FieldKind Q → Bool
  | subquery _ => true
  | _ => false

def typeName : FieldKind Q → String
  | column _ => "Field"
  | fieldSet _ => "FieldSet"
  | call _ _ => "Function"
  | subquery _ => "SubQuery"
  | literal value => value.typeName
  | parameter _ => "ParameterizedValue"
  | relativeDate _ => "DateTimeLiteralName"

def ofListItem : ListItem → FieldKind Q
  | .literal value => literal value
  | .parameter name => parameter name
  | .relativeDate date => relativeDate date

/-- The value a kind stands for where it may be an entry of a value list. -/
def listItem? : FieldKind Q → Option ListItem
  | literal value => some (.literal value)
  | parameter name => some (.parameter name)
  | relativeDate date => some (.relativeDate date)
  | _ => none

end FieldKind

namespace Field

def ofKind (kind : FieldKind Q) : Field Q :=
  { kind }

def ofListItem (item : ListItem) : Field Q :=
  ofKind (.ofListItem item)

/-- The path of the object that a column or a field set belongs to. -/
def objectPath? (field : Field Q) : Option Path :=
  field.kind.path?.map Path.parent

end Field

mutual

def FieldKind.map (f : P → Q) : FieldKind P → FieldKind Q
  | .column path => .column path
  | .fieldSet path => .fieldSet path
  | .call name arguments => .call name (Field.mapAll f arguments)
  | .subquery query => .subquery (f query)
  | .literal value => .literal value
  | .parameter name => .parameter name
  | .relativeDate date => .relativeDate date

def Field.map (f : P → Q) : Field P → Field Q
  | ⟨kind, aliasName, notSelected, aggregated, key, columnId, columnIndex⟩ =>
      ⟨kind.map f, aliasName, notSelected, aggregated, key, columnId, columnIndex⟩

def Field.mapAll (f : P → Q) : List (Field P) → List (Field Q)
  | [] => []
  | field :: rest => field.map f :: Field.mapAll f rest

end

mutual

/-- Whether two kinds agree, by a test of the queries in them. -/
def FieldKind.agrees (test : P → Q → Bool) : FieldKind P → FieldKind Q → Bool
  | .column left, .column right => left == right
  | .fieldSet left, .fieldSet right => left == right
  | .call left arguments, .call right others =>
      left == right && Field.allAgree test arguments others
  | .subquery left, .subquery right => test left right
  | .literal left, .literal right => left == right
  | .parameter left, .parameter right => left == right
  | .relativeDate left, .relativeDate right => left == right
  | _, _ => false

/-- Whether two fields agree, by a test of the queries in them. -/
def Field.agrees (test : P → Q → Bool) : Field P → Field Q → Bool
  | ⟨kind, aliasName, notSelected, aggregated, key, columnId, columnIndex⟩, other =>
      kind.agrees test other.kind && aliasName == other.aliasName &&
        notSelected == other.notSelected && aggregated == other.aggregated &&
        key == other.key && columnId == other.columnId && columnIndex == other.columnIndex

def Field.allAgree (test : P → Q → Bool) : List (Field P) → List (Field Q) → Bool
  | [], [] => true
  | left :: lefts, right :: rights => left.agrees test right && Field.allAgree test lefts rights
  | _, _ => false

end

namespace Field

@[simp]
theorem mapAll_eq_map (f : P → Q) (fields : List (Field P)) :
    mapAll f fields = fields.map (map f) := by
  induction fields with
  | nil => rfl
  | cons field rest induction => simp [mapAll, induction]

end Field

end ObjectQuery
