import PortableQuery.Dynamo.Like
import PortableQuery.Dynamo.Supported
import PortableQuery.Text.Case
import PortableQuery.Text.Quoted

/-!
# PartiQL

The SQL-like language of a key-value store. Identifiers are written bare, strings in single quotes.
A test for null becomes a test for a missing attribute, and patterns become the string functions of
the store.
-/

namespace PortableQuery

open Dynamo

namespace Dynamo

def quoted (text : String) : String := Text.Quoted.encode '\'' text

def braced (text : String) : String := "\x7b" ++ text ++ "\x7d"

mutual

/-- A literal in PartiQL. Binary data has no literal. -/
def literalText : Literal → Except Error String
  | .null => .ok "NULL"
  | .bool true => .ok "TRUE"
  | .bool false => .ok "FALSE"
  | .int value => .ok (Literal.intText value)
  | .float value => .ok value.plain
  | .string text => .ok (quoted text)
  | .date instant => .ok (quoted instant.iso)
  | .bytes _ => .error (.unsupported .partiql .binaryValue)
  | .list items => do
    let items ← literalTexts items
    return "[" ++ String.intercalate ", " items ++ "]"
  | .map entries => do
    let entries ← entryTexts entries
    return braced (String.intercalate ", " entries)

def literalTexts : List Literal → Except Error (List String)
  | [] => .ok []
  | item :: more => do
    let first ← literalText item
    let others ← literalTexts more
    return first :: others

def entryTexts : List (String × Literal) → Except Error (List String)
  | [] => .ok []
  | (name, value) :: more => do
    let value ← literalText value
    let others ← entryTexts more
    return (quoted name ++ ": " ++ value) :: others

end

/-- Where an expression stands. -/
inductive Position
  | identifier
  | value
  deriving DecidableEq

/-- A column is a bare name in the position of an identifier and a string literal in that of a
value. -/
def Position.columnText : Position → String → String
  | .identifier, text => text
  | .value, text => quoted text

/-- Functions that the store spells in lower case. -/
def lowerCaseFunctions : List String :=
  ["SIZE", "ATTRIBUTE_EXISTS", "ATTRIBUTE_NOT_EXISTS", "BEGINS_WITH", "CONTAINS"]

def functionName (name : String) : String :=
  match Text.Case.asciiUpperText? name with
  | some upper => if lowerCaseFunctions.contains upper then asciiLower upper else name
  | none => name

def likeText (key pattern : String) (isLike : Bool) : String :=
  let negation := if isLike then "" else "NOT "
  match LikeTest.ofPattern pattern with
  | .contains term => negation ++ "contains(" ++ key ++ ", " ++ quoted term ++ ")"
  | .beginsWith term => negation ++ "begins_with(" ++ key ++ ", " ++ quoted term ++ ")"
  | .equals term => key ++ (if isLike then " = " else " <> ") ++ quoted term

end Dynamo

mutual

/-- An expression at a position; only plain columns differ between the two. -/
def Expr.partiql (position : Position) : Expr → Except Error String
  | .column text => .ok (position.columnText text)
  | .value literal => literalText literal
  | .raw literal => .ok literal.plain
  | .call name args => do
    let args ← Expr.partiqlList .value args
    return functionName name ++ "(" ++ String.intercalate ", " args ++ ")"
  | .operation operator operands => do
    let operands ← Expr.partiqlList .identifier operands
    return "(" ++ String.intercalate (" " ++ operator ++ " ") operands ++ ")"
  | .condition test => test.partiql
  | .subquery _ => .error (.unsupported .partiql .subquery)

def Expr.partiqlList (position : Position) : List Expr → Except Error (List String)
  | [] => .ok []
  | expr :: more => do
    let first ← expr.partiql position
    let others ← Expr.partiqlList position more
    return first :: others

def Condition.partiql : Condition → Except Error String
  | .compare key value operator => do
    let key ← key.partiql .identifier
    let value ← value.partiql .value
    return key ++ " " ++ operator.angleWord ++ " " ++ value
  | .between key low high => do
    let key ← key.partiql .identifier
    let low ← low.partiql .value
    let high ← high.partiql .value
    return key ++ " BETWEEN " ++ low ++ " AND " ++ high
  | .oneOf key values => do
    let key ← key.partiql .identifier
    let values ← Expr.partiqlList .value values
    return key ++ " IN (" ++ String.intercalate ", " values ++ ")"
  | .noneOf key values => do
    let key ← key.partiql .identifier
    let values ← Expr.partiqlList .value values
    return "NOT (" ++ key ++ " IN (" ++ String.intercalate ", " values ++ "))"
  | .null key isNull => do
    let key ← key.partiql .identifier
    return key ++ " IS " ++ (if isNull then "" else "NOT ") ++ "MISSING"
  | .like key pattern isLike => do
    let key ← key.partiql .identifier
    return likeText key pattern isLike
  | .columns left right operator => do
    let left ← left.partiql .identifier
    let right ← right.partiql .identifier
    return left ++ " " ++ operator.angleWord ++ " " ++ right
  | .logical members operator => do
    let members ← Condition.partiqlList members
    return "(" ++ String.intercalate (" " ++ operator.word ++ " ") members ++ ")"
  | .not inner => do
    let inner ← inner.partiql
    return "NOT (" ++ inner ++ ")"

def Condition.partiqlList : List Condition → Except Error (List String)
  | [] => .ok []
  | condition :: more => do
    let first ← condition.partiql
    let others ← Condition.partiqlList more
    return first :: others

end

namespace Dynamo

def whereText (filter : List Condition) : Except Error String := do
  let conditions ← Condition.partiqlList filter
  return String.intercalate " AND " conditions

def fieldTexts : List Field → Except Error (List String)
  | [] => .ok []
  | field :: more => do
    let expr ← field.expr.partiql .identifier
    let text := match field.label with
      | some label => expr ++ " AS " ++ label
      | none => expr
    let others ← fieldTexts more
    return text :: others

def sortTexts : List SortKey → Except Error (List String)
  | [] => .ok []
  | key :: more => do
    let expr ← key.expr.partiql .identifier
    let others ← sortTexts more
    return (expr ++ " " ++ key.direction.word) :: others

def assignmentTexts : List (String × Expr) → Except Error (List String)
  | [] => .ok []
  | (column, value) :: more => do
    let value ← value.partiql .value
    let others ← assignmentTexts more
    return (column ++ " = " ++ value) :: others

/-- One statement for every row. -/
def insertTexts (table : String) : List Row → Except Error (List String)
  | [] => .ok []
  | row :: more => do
    let entries ← entryTexts row
    let others ← insertTexts table more
    return ("INSERT INTO " ++ table ++ " VALUE " ++ braced (String.intercalate ", " entries)) :: others

end Dynamo

def Select.partiql (query : Select) : Except Error String := do
  query.checkSupported .partiql
  let fields ← fieldTexts query.fields
  let table ← query.requireTable .partiql
  let tableName ← table.requireName .partiql
  let label := match table with
    | .named _ label => label
    | .nested _ label => label
  let filter ← whereText query.filter
  let orderBy ← sortTexts query.orderBy
  return "SELECT " ++ (if fields.isEmpty then "*" else String.intercalate ", " fields) ++
    " FROM " ++ tableName ++
    (match label with
      | some label => " AS " ++ label
      | none => "") ++
    (if query.filter.isEmpty then "" else " WHERE " ++ filter) ++
    (if orderBy.isEmpty then "" else " ORDER BY " ++ String.intercalate ", " orderBy) ++
    (match query.limit with
      | some n => " LIMIT " ++ Text.Numeral.ofNat n.toNat
      | none => "")

def Insert.partiql (mutation : Insert) : Except Error String := do
  let table ← mutation.table.requireName .partiql
  let rows ← mutation.requireRows .partiql
  let statements ← insertTexts table rows
  return String.intercalate ";\n" statements

def Update.partiql (mutation : Update) : Except Error String := do
  let table ← mutation.table.requireName .partiql
  if mutation.assignments.isEmpty then .error (.missing .assignments)
  else
    let assignments ← assignmentTexts mutation.assignments
    if mutation.filter.isEmpty then .error (.missing (.whereClause .partiql .update))
    else
      let filter ← whereText mutation.filter
      return "UPDATE " ++ table ++ " SET " ++ String.intercalate ", " assignments ++ " WHERE " ++ filter

def Delete.partiql (mutation : Delete) : Except Error String := do
  let table ← mutation.table.requireName .partiql
  if mutation.filter.isEmpty then .error (.missing (.whereClause .partiql .delete))
  else
    let filter ← whereText mutation.filter
    return "DELETE FROM " ++ table ++ " WHERE " ++ filter

/-- Compiles a statement into PartiQL. -/
def Statement.partiql : Statement → Except Error String
  | .select query => query.partiql
  | .insert mutation => mutation.partiql
  | .update mutation => mutation.partiql
  | .delete mutation => mutation.partiql
  | .createTable _ => .error (.unsupported .partiql .createTable)
  | .createView _ => .error (.unsupported .partiql .createView)

end PortableQuery
