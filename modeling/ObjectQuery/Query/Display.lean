import ObjectQuery.Decimal.Layout
import ObjectQuery.Query.Statement

namespace ObjectQuery

/-! Queries and their parts as text. -/

namespace RelativeDate

/-- The keyword, with the count where it is one that counts. -/
def render (date : RelativeDate) : String :=
  if date.counts then
    date.keyword ++ ":" ++ toString date.count.toInt
  else
    date.keyword

end RelativeDate

def commaText (texts : List String) : String :=
  ", ".intercalate texts

namespace Literal

def quote (text : String) : String :=
  String.ofList ('\'' :: text.toList.flatMap escaped ++ ['\''])
where
  escaped (char : Char) : List Char :=
    if char = '\\' ∨ char = '\'' then ['\\', char] else [char]

end Literal

mutual

def Literal.render : Literal → String
  | .null => "null"
  | .int value => toString value.toInt
  | .float value => DecimalLayout.display.render value
  | .bool value => if value then "true" else "false"
  | .text value => Literal.quote value
  | .bytes value => "<blob " ++ toString value.length ++ " bytes>"
  | .date instant => instant.renderDate
  | .dateTime instant => instant.render
  | .time instant => instant.renderTime
  | .dateTimeRange start stop => "[" ++ start.render ++ ", " ++ stop.render ++ "]"
  | .list items => "(" ++ commaText (ListItem.renderAll items) ++ ")"

def ListItem.render : ListItem → String
  | .literal value => value.render
  | .parameter name => ":" ++ name
  | .relativeDate date => date.render

def ListItem.renderAll : List ListItem → List String
  | [] => []
  | item :: rest => item.render :: ListItem.renderAll rest

end

mutual

/-- A kind of field as text, the queries in it being texts already. -/
def FieldKind.render : FieldKind String → String
  | .column path => path.render
  | .fieldSet path => "FIELDS(" ++ path.render ++ ")"
  | .call name arguments => name ++ "(" ++ commaText (Field.renderAll arguments) ++ ")"
  | .subquery text => "(" ++ text ++ ")"
  | .literal value => value.render
  | .parameter name => ":" ++ name
  | .relativeDate date => date.render

def Field.render : Field String → String
  | ⟨kind, aliasName, _, _, _, _, _⟩ =>
      match aliasName with
      | some aliasName => kind.render ++ " " ++ aliasName
      | none => kind.render

def Field.renderAll : List (Field String) → List String
  | [] => []
  | field :: rest => field.render :: Field.renderAll rest

end

namespace OrderKey

def render (order : OrderKey String) : String :=
  order.field.render ++ (if order.descending then " DESC" else "") ++
    (if order.nullsLast then " NULLS LAST" else "")

end OrderKey

namespace RowBound

def render : RowBound → String
  | count value => toString value.toInt
  | parameter name => ":" ++ name

end RowBound

namespace AccessClause

def render (clause : AccessClause) : String :=
  let chosen (options : List (Bool × String)) : List String :=
    (options.filter (·.1)).map (·.2)
  let uses := chosen
    [(clause.view, "VIEW"), (clause.reference, "REFERENCE"), (clause.update, "UPDATE")]
  let updates := chosen
    [(clause.updateTracking, "TRACKING"), (clause.updateViewstat, "VIEWSTAT")]
  "FOR " ++ commaText uses ++ (if updates.isEmpty then "" else " " ++ commaText updates)

end AccessClause

namespace Condition

def infixOfFields (conditions : List (Condition (Field String))) : String :=
  infixText (conditions.map (·.map Field.render))

end Condition

namespace Statement

/-- A clause after its keyword, left out where it is empty. -/
def clauseText (keyword : String) (isEmpty : Bool) (content : String) : String :=
  if isEmpty then "" else " " ++ keyword ++ " " ++ content

/-- A statement as text, the queries in it being texts already. -/
def render (statement : Statement String) : String :=
  let selected := statement.fields.filter fun field => !field.notSelected
  let bound (keyword : String) (bound : Option RowBound) : String :=
    match bound with
    | some bound => clauseText keyword false bound.render
    | none => ""
  "SELECT " ++ commaText (selected.map Field.render) ++
    " FROM " ++ commaText (statement.objects.map SourceObject.render) ++
    clauseText "WHERE" statement.filter.isEmpty (Condition.infixOfFields statement.filter) ++
    clauseText "GROUP BY" statement.groupBy.isEmpty
      (commaText (statement.groupBy.map Field.render)) ++
    clauseText "HAVING" statement.having.isEmpty (Condition.infixOfFields statement.having) ++
    clauseText "ORDER BY" statement.orderBy.isEmpty
      (commaText (statement.orderBy.map OrderKey.render)) ++
    bound "OFFSET" statement.bounds.offset ++
    bound "LIMIT" statement.bounds.limit ++
    (if statement.access.isEmpty then "" else " " ++ statement.access.render)

end Statement

namespace Query

def render (query : Query) : String :=
  query.fold Statement.render

def renderField (field : Field Query) : String :=
  (field.map render).render

def renderCondition (condition : Condition (Field Query)) : String :=
  (condition.map renderField).render

/-- A postfix list of a query as text with the operators between their operands. -/
def renderConditions (conditions : List (Condition (Field Query))) : String :=
  Condition.infixText (conditions.map (·.map renderField))

def renderOrderKey (order : OrderKey Query) : String :=
  (order.map render).render

end Query

end ObjectQuery
