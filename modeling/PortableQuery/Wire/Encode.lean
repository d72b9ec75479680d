import PortableQuery.Json.Printer
import PortableQuery.Query.Basic
import PortableQuery.Wire.Literal

/-!
# Writing queries

Expressions become single strings marked by sentinels; conditions and statements become JSON
objects told apart by their `type`. Optional members are left out when they are empty, apart from
the tables of a select.
-/

namespace PortableQuery

open Wire

namespace Wire

/-- A member holding a list, left out when the list is empty. -/
def listMember (name : String) (items : List Json) : List (String × Json) :=
  match items with
  | [] => []
  | items => [(name, .array items)]

def optionMember (name : String) (value : Option Json) : List (String × Json) :=
  match value with
  | none => []
  | some value => [(name, value)]

def wordJson (value : Option UInt64) : Option Json := value.map fun n => .integer n.toNat

/-- The text of a function call or an operation: a JSON array of the name and the arguments. -/
def callText (mark name : String) (args : List Json) : String :=
  mark ++ (Json.array (.string name :: args)).compact ++ ")"

end Wire

mutual

def Expr.encode : Expr → String
  | .column text => text
  | .value (.date instant) => dateText instant.millis
  | .value literal => valueMark ++ literal.toJson.compact
  | .raw literal => rawMark ++ literal.toJson.compact ++ rawMark
  | .call name args => callText "FN(" name (Expr.encodeList args)
  | .operation operator operands => callText "OP(" operator (Expr.encodeList operands)
  | .condition test => test.toJson.compact
  | .subquery query => valueMark ++ query.toJson.compact

def Expr.encodeList : List Expr → List Json
  | [] => []
  | expr :: more => .string expr.encode :: Expr.encodeList more

def Condition.toJson : Condition → Json
  | .compare key value operator =>
    .object [("type", .string "BinaryCondition"), ("key", .string key.encode),
      ("value", .string value.encode), ("operator", .string operator.word)]
  | .between key low high =>
    .object [("type", .string "BetweenCondition"), ("key", .string key.encode),
      ("from", .string low.encode), ("to", .string high.encode)]
  | .oneOf key values =>
    .object [("type", .string "InCondition"), ("key", .string key.encode),
      ("values", .array (Expr.encodeList values))]
  | .noneOf key values =>
    .object [("type", .string "NotInCondition"), ("key", .string key.encode),
      ("values", .array (Expr.encodeList values))]
  | .null key isNull =>
    .object [("type", .string "NullCondition"), ("key", .string key.encode), ("isNull", .bool isNull)]
  | .like key pattern isLike =>
    .object [("type", .string "LikeCondition"), ("key", .string key.encode),
      ("pattern", .string pattern), ("isLike", .bool isLike)]
  | .columns left right operator =>
    .object [("type", .string "ColumnComparisonCondition"), ("leftKey", .string left.encode),
      ("rightKey", .string right.encode), ("operator", .string operator.word)]
  | .logical members operator =>
    .object [("type", .string "LogicalCondition"),
      ("conditions", .array (Condition.toJsonList members)), ("operator", .string operator.word)]
  | .not inner => .object [("type", .string "NotCondition"), ("condition", inner.toJson)]

def Condition.toJsonList : List Condition → List Json
  | [] => []
  | condition :: more => condition.toJson :: Condition.toJsonList more

def Condition.toJsonOption : Option Condition → Option Json
  | none => none
  | some condition => some condition.toJson

def Table.toJson : Table → Json
  | .named name label =>
    .object ([("type", .string "Table"), ("source", .string name)] ++
      optionMember "alias" (label.map .string))
  | .nested query label =>
    .object ([("type", .string "Table"), ("source", query.toJson)] ++
      optionMember "alias" (label.map .string))

def Table.toJsonList : List Table → List Json
  | [] => []
  | table :: more => table.toJson :: Table.toJsonList more

def Join.toJson : Join → Json
  | ⟨table, condition, kind⟩ =>
    .object ([("type", .string "Join"), ("table", table.toJson)] ++
      optionMember "condition" (Condition.toJsonOption condition) ++
      [("joinType", .string kind.word)])

def Join.toJsonList : List Join → List Json
  | [] => []
  | join :: more => join.toJson :: Join.toJsonList more

def Field.toJson : Field → Json
  | ⟨expr, label⟩ =>
    .object ([("name", .string expr.encode)] ++ optionMember "alias" (label.map .string))

def Field.toJsonList : List Field → List Json
  | [] => []
  | field :: more => field.toJson :: Field.toJsonList more

def SortKey.toJson : SortKey → Json
  | ⟨expr, direction⟩ =>
    .object [("field", .string expr.encode), ("direction", .string direction.word)]

def SortKey.toJsonList : List SortKey → List Json
  | [] => []
  | key :: more => key.toJson :: SortKey.toJsonList more

def UnionTail.toJson : UnionTail → Json
  | ⟨kind, query⟩ => .object [("type", .string kind.word), ("query", query.toJson)]

def UnionTail.toJsonList : List UnionTail → List Json
  | [] => []
  | tail :: more => tail.toJson :: UnionTail.toJsonList more

def Select.toJson : Select → Json
  | ⟨tables, joins, fields, filter, having, orderBy, groupBy, limit, offset, unions⟩ =>
    .object ([("type", .string "SelectQuery"), ("tables", .array (Table.toJsonList tables))] ++
      listMember "unionQueries" (UnionTail.toJsonList unions) ++
      listMember "joins" (Join.toJsonList joins) ++
      listMember "fields" (Field.toJsonList fields) ++
      listMember "where" (Condition.toJsonList filter) ++
      listMember "having" (Condition.toJsonList having) ++
      listMember "orderBy" (SortKey.toJsonList orderBy) ++
      listMember "groupBy" (Expr.encodeList groupBy) ++
      optionMember "limit" (wordJson limit) ++
      optionMember "offset" (wordJson offset))

end

def Condition.encode (condition : Condition) : String := condition.toJson.compact

/-- The name by which a condition is told apart on the wire. -/
def Condition.typeName : Condition → String
  | .compare .. => "BinaryCondition"
  | .between .. => "BetweenCondition"
  | .oneOf .. => "InCondition"
  | .noneOf .. => "NotInCondition"
  | .null .. => "NullCondition"
  | .like .. => "LikeCondition"
  | .columns .. => "ColumnComparisonCondition"
  | .logical .. => "LogicalCondition"
  | .not _ => "NotCondition"

def Row.toJson (row : Row) : Json := .object (row.map fun (name, value) => (name, value.toJson))

def InsertSource.members : InsertSource → List (String × Json)
  | .rows given => [("values", .array (given.map Row.toJson))]
  | .select query columns =>
    let columns := match columns with
      | none => .null
      | some names => .array (names.map .string)
    [("select", .array [query.toJson, columns])]

def Insert.toJson (mutation : Insert) : Json :=
  .object ([("type", .string "InsertMutation"), ("table", mutation.table.toJson)] ++
    match mutation.source with
    | none => []
    | some source => source.members)

def Update.toJson (mutation : Update) : Json :=
  .object [("type", .string "UpdateMutation"), ("table", mutation.table.toJson),
    ("values", .object (mutation.assignments.map fun (name, value) => (name, .string value.encode))),
    ("where", .array (Condition.toJsonList mutation.filter))]

def Delete.toJson (mutation : Delete) : Json :=
  .object [("type", .string "DeleteMutation"), ("table", mutation.table.toJson),
    ("where", .array (Condition.toJsonList mutation.filter))]

def CreateTable.toJson (definition : CreateTable) : Json :=
  .object [("type", .string "CreateTableAsSelect"), ("tableName", .string definition.name),
    ("select", definition.query.toJson)]

def CreateView.toJson (definition : CreateView) : Json :=
  .object [("type", .string "CreateViewAsSelect"), ("viewName", .string definition.name),
    ("select", definition.query.toJson), ("orReplace", .bool definition.orReplace)]

def Statement.toJson : Statement → Json
  | .select query => query.toJson
  | .insert mutation => mutation.toJson
  | .update mutation => mutation.toJson
  | .delete mutation => mutation.toJson
  | .createTable definition => definition.toJson
  | .createView definition => definition.toJson

def Statement.encode (statement : Statement) : String := statement.toJson.compact

end PortableQuery
