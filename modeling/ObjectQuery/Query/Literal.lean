import ObjectQuery.Lexical.Moment
import ObjectQuery.Lexical.RelativeDate

namespace ObjectQuery

/-! Literal values and the entries of value lists. -/

mutual

/-- A constant of a query. -/
inductive Literal where
  | null
  | int (value : Int64)
  | float (value : Float)
  | bool (value : Bool)
  | text (value : String)
  | bytes (value : List UInt8)
  | date (instant : Instant)
  | dateTime (instant : Instant)
  | time (instant : Instant)
  | dateTimeRange (start stop : Instant)
  | list (items : List ListItem)

/-- An entry of a value list. -/
inductive ListItem where
  | literal (value : Literal)
  | parameter (name : String)
  | relativeDate (date : RelativeDate)

end

mutual

def Literal.agrees : Literal → Literal → Bool
  | .null, .null => true
  | .int left, .int right => left == right
  | .float left, .float right => decide (left = right)
  | .bool left, .bool right => left == right
  | .text left, .text right => left == right
  | .bytes left, .bytes right => left == right
  | .date left, .date right => left == right
  | .dateTime left, .dateTime right => left == right
  | .time left, .time right => left == right
  | .dateTimeRange start stop, .dateTimeRange otherStart otherStop =>
      start == otherStart && stop == otherStop
  | .list left, .list right => ListItem.allAgree left right
  | _, _ => false

def ListItem.agrees : ListItem → ListItem → Bool
  | .literal left, .literal right => left.agrees right
  | .parameter left, .parameter right => left == right
  | .relativeDate left, .relativeDate right => left == right
  | _, _ => false

def ListItem.allAgree : List ListItem → List ListItem → Bool
  | [], [] => true
  | left :: lefts, right :: rights => left.agrees right && ListItem.allAgree lefts rights
  | _, _ => false

end

mutual

theorem Literal.agrees_iff : (left right : Literal) → left.agrees right = true ↔ left = right
  | .list left, .list right => by
      simp [Literal.agrees, ListItem.allAgree_iff left right]
  | .list _, .null | .list _, .int _ | .list _, .float _ | .list _, .bool _
  | .list _, .text _ | .list _, .bytes _ | .list _, .date _ | .list _, .dateTime _
  | .list _, .time _ | .list _, .dateTimeRange _ _ => by simp [Literal.agrees]
  | .null, right | .int _, right | .float _, right | .bool _, right | .text _, right
  | .bytes _, right | .date _, right | .dateTime _, right | .time _, right
  | .dateTimeRange _ _, right => by cases right <;> simp [Literal.agrees]

theorem ListItem.agrees_iff : (left right : ListItem) → left.agrees right = true ↔ left = right
  | .literal left, .literal right => by
      simp [ListItem.agrees, Literal.agrees_iff left right]
  | .literal _, .parameter _ | .literal _, .relativeDate _ => by simp [ListItem.agrees]
  | .parameter _, right | .relativeDate _, right => by cases right <;> simp [ListItem.agrees]

theorem ListItem.allAgree_iff : (left right : List ListItem) →
    ListItem.allAgree left right = true ↔ left = right
  | [], right => by cases right <;> simp [ListItem.allAgree]
  | _ :: _, [] => by simp [ListItem.allAgree]
  | left :: lefts, right :: rights => by
      simp [ListItem.allAgree, ListItem.agrees_iff left right,
        ListItem.allAgree_iff lefts rights]

end

instance : DecidableEq Literal := fun left right =>
  decidable_of_iff _ (Literal.agrees_iff left right)

instance : DecidableEq ListItem := fun left right =>
  decidable_of_iff _ (ListItem.agrees_iff left right)

namespace Literal

def typeName : Literal → String
  | null => "Null"
  | int _ => "Int"
  | float _ => "Float"
  | bool _ => "Bool"
  | text _ => "String"
  | bytes _ => "Blob"
  | date _ => "Date"
  | dateTime _ => "DateTime"
  | time _ => "Time"
  | dateTimeRange _ _ => "DateTimeRange"
  | list _ => "List"

def isNull : Literal → Bool
  | null => true
  | _ => false

end Literal

end ObjectQuery
