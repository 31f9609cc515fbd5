import ObjectQuery.Query.Statement
import ObjectQuery.Wire.Json

namespace ObjectQuery

/-! The written form of queries and of their parts. -/

namespace Path

def toJson (path : Path) : Json :=
  .list (path.map .text)

end Path

namespace RelativeDate

def members (date : RelativeDate) : List (String × Json) :=
  [("name", .text date.keyword), ("value", .int date.count.toInt)]

end RelativeDate

namespace Literal

/-- A float; infinities and what is not a number are written as texts. -/
def floatJson (value : Float) : Json :=
  match FloatView.ofFloat value with
  | .nan => .text "NaN"
  | .infinity negative => .text (if negative then "-Infinity" else "Infinity")
  | .finite _ _ => .float value

end Literal

mutual

def Literal.toJson : Literal → Json
  | .null => .null
  | .int value => .int value.toInt
  | .float value => Literal.floatJson value
  | .bool value => .bool value
  | .text value => .text value
  | .bytes value => .list (value.map fun byte => .nat byte.toNat)
  | .date instant | .dateTime instant | .time instant => .text instant.render
  | .dateTimeRange start stop =>
      .record [("start", .text start.render), ("end", .text stop.render)]
  | .list items => .list (ListItem.toJsonAll items)

/-- An entry of a value list, which looks like a field. -/
def ListItem.toJson : ListItem → Json
  | .literal value =>
      .record (("type", .text value.typeName) ::
        Json.member (!value.isNull) "value" value.toJson)
  | .parameter name => .record [("type", .text "ParameterizedValue"), ("name", .text name)]
  | .relativeDate date => .record (("type", .text "DateTimeLiteralName") :: date.members)

def ListItem.toJsonAll : List ListItem → List Json
  | [] => []
  | item :: rest => item.toJson :: ListItem.toJsonAll rest

end

namespace Literal

def members (literal : Literal) : List (String × Json) :=
  Json.member (!literal.isNull) "value" literal.toJson

end Literal

mutual

/-- The written form of a field, the queries in it being written already. -/
def Field.toJson : Field Json → Json
  | ⟨kind, aliasName, notSelected, aggregated, key, columnId, columnIndex⟩ =>
      .record (("type", .text kind.typeName) :: FieldKind.members kind ++
        Json.optional "aliasName" .text aliasName ++ FieldKind.laterMembers kind ++
        Json.flag "notSelected" notSelected ++ Json.flag "aggregated" aggregated ++
        Json.member (key != "") "key" (.text key) ++
        Json.optional "columnId" .nat columnId ++ Json.optional "colIndex" .nat columnIndex)

/-- The members of a kind of field that stand before the alias. -/
def FieldKind.members : FieldKind Json → List (String × Json)
  | .column path | .fieldSet path => [("name", path.toJson)]
  | .call name _ => [("name", .text name)]
  | .subquery _ => []
  | .literal value => value.members
  | .parameter name => [("name", .text name)]
  | .relativeDate date => date.members

/-- The members of a kind of field that stand after the alias. -/
def FieldKind.laterMembers : FieldKind Json → List (String × Json)
  | .call _ arguments => Json.nonempty "parameters" (Field.toJsonAll arguments)
  | .subquery query => [("subQuery", query)]
  | _ => []

def Field.toJsonAll : List (Field Json) → List Json
  | [] => []
  | field :: rest => field.toJson :: Field.toJsonAll rest

end

namespace Condition

def toJson (condition : Condition (Field Json)) : Json :=
  .record (("opcode", .text condition.name) ::
    Json.optional "value" Field.toJson condition.operand?)

end Condition

namespace SourceObject

def toJson (object : SourceObject Json) : Json :=
  .record ([("name", object.path.toJson)] ++
    Json.optional "aliasName" .text object.aliasName ++
    Json.member (object.key != "") "key" (.text object.key) ++
    Json.flag "hasConditions" object.hasConditions ++
    Json.flag "innerJoin" object.innerJoin ++
    Json.optional "viewId" .nat object.viewId ++
    Json.optional "parentViewId" .nat object.parentViewId ++
    Json.optional "perObjectQuery" id object.plan)

end SourceObject

namespace OrderKey

def toJson (order : OrderKey Json) : Json :=
  .record ([("field", order.field.toJson)] ++ Json.flag "desc" order.descending ++
    Json.flag "nullsLast" order.nullsLast)

end OrderKey

namespace RowBounds

/-- The written form of row bounds: a count or the name of a parameter for each. -/
def toJson (bounds : RowBounds) : Json :=
  let count (bound : Option RowBound) : Option Int64 := bound.bind RowBound.count?
  let parameter (bound : Option RowBound) : Option String := bound.bind RowBound.parameter?
  .record (Json.optional "offset" (fun value => .int value.toInt) (count bounds.offset) ++
    Json.optional "limit" (fun value => .int value.toInt) (count bounds.limit) ++
    Json.optional "offsetParamName" .text (parameter bounds.offset) ++
    Json.optional "limitParamName" .text (parameter bounds.limit))

end RowBounds

namespace AccessClause

def toJson (clause : AccessClause) : Json :=
  .record (Json.flag "view" clause.view ++ Json.flag "reference" clause.reference ++
    Json.flag "update" clause.update ++ Json.flag "updateTracking" clause.updateTracking ++
    Json.flag "updateViewstat" clause.updateViewstat)

end AccessClause

namespace QueryNode

def toJson (node : QueryNode) : Json :=
  .record (Json.optional "parentId" .nat node.parentId ++ [("depth", .nat node.depth)] ++
    Json.flag "isConditional" node.isConditional)

end QueryNode

namespace ViewNode

def toJson (node : ViewNode) : Json :=
  .record (Json.optional "parentViewId" .nat node.parentViewId ++
    [("queryId", .nat node.queryId), ("depth", .nat node.depth),
      ("queryDepth", .nat node.queryDepth)])

end ViewNode

def graphJson (encode : ν → Json) (graph : SortedMap Nat ν) : Json :=
  .record (graph.entries.map fun entry => (toString entry.1, encode entry.2))

def setJson (set : SortedSet String) : Json :=
  .list (set.toList.map .text)

namespace Metadata

def toJson (metadata : Metadata) : Json :=
  .record
    [ ("version", .text metadata.version),
      ("date", .text metadata.date.render),
      ("elapsedTime", .nat metadata.elapsedTime),
      ("source", .text metadata.source),
      ("maxQueryDepth", .nat metadata.maxQueryDepth),
      ("maxViewDepth", .nat metadata.maxViewDepth),
      ("nextQueryId", .nat metadata.nextQueryId),
      ("nextViewId", .nat metadata.nextViewId),
      ("nextColumnId", .nat metadata.nextColumnId),
      ("queryGraph", graphJson QueryNode.toJson metadata.queryGraph),
      ("viewGraph", graphJson ViewNode.toJson metadata.viewGraph),
      ("functions", setJson metadata.functions),
      ("parameters", setJson metadata.parameters),
      ("dateTimeLiterals", setJson metadata.relativeDates) ]

end Metadata

namespace Statement

/-- The written form of a statement, the queries in it being written already. -/
def toJson (statement : Statement Json) : Json :=
  .record ([("id", .nat statement.id)] ++
    Json.optional "parentId" .nat statement.parentId ++
    Json.nonempty "fields" (statement.fields.map Field.toJson) ++
    Json.nonempty "from" (statement.objects.map SourceObject.toJson) ++
    Json.nonempty "where" (statement.filter.map Condition.toJson) ++
    Json.nonempty "groupBy" (statement.groupBy.map Field.toJson) ++
    Json.nonempty "having" (statement.having.map Condition.toJson) ++
    Json.nonempty "orderBy" (statement.orderBy.map OrderKey.toJson) ++
    Json.member (!statement.bounds.isEmpty) "offsetAndLimit" statement.bounds.toJson ++
    Json.member (!statement.access.isEmpty) "for" statement.access.toJson ++
    Json.flag "isAggregation" statement.isAggregation ++
    Json.flag "isCorrelated" statement.isCorrelated ++
    Json.nonempty "postProcessWhere" (statement.residual.map Condition.toJson) ++
    Json.optional "meta" Metadata.toJson statement.metadata)

end Statement

namespace Query

def toJson (query : Query) : Json :=
  query.fold Statement.toJson

def fieldJson (field : Field Query) : Json :=
  (field.map toJson).toJson

def conditionsJson (conditions : List (Condition (Field Query))) : Json :=
  .list (conditions.map fun condition => (condition.map (·.map toJson)).toJson)

/-- The text of the written form of a query, on one line. -/
def encode (query : Query) : String :=
  query.toJson.render

def encodePretty (query : Query) : String :=
  query.toJson.renderPretty 0

end Query

end ObjectQuery
