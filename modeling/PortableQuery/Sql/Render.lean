import PortableQuery.Query.Basic
import PortableQuery.Sql.Function
import PortableQuery.Sql.Template

/-!
# Rendering SQL

Every clause is rendered in the order in which it is written, and the first failure is the answer.
What stands for a plain table name in a FROM or JOIN clause and for a select inside the statement is
left to a `Rendering`, so that both can be replaced while the rest is rendered as usual.
-/

namespace PortableQuery

open Sql

namespace Sql

/-- The rendered source of a plain table name, and whether it is a nested select. -/
abbrev Naming := String → Except Error (String × Bool)

def Flavor.naming (flavor : Flavor) : Naming := fun name => .ok (flavor.dialect.table name, false)

/-- A flavor together with what is put in the place of table names and of selects. -/
structure Rendering where
  flavor : Flavor
  naming : Naming
  /-- The text that a select is replaced by; `none` renders the select itself. -/
  replaced? : Select → Option (Except Error String)

namespace Rendering

/-- Nothing is replaced. -/
def plain (flavor : Flavor) : Rendering :=
  { flavor, naming := flavor.naming, replaced? := fun _ => none }

def dialect (rendering : Rendering) : Dialect := rendering.flavor.dialect

/-- What stands for a select, given how the select itself is rendered. -/
def select (rendering : Rendering) (query : Select) (itself : Unit → Except Error String) :
    Except Error String :=
  match rendering.replaced? query with
  | some text => text
  | none => itself ()

end Rendering

/-- A clause with its introduction; nothing for no parts. -/
def clause (intro separator : String) (parts : List String) : String :=
  match parts with
  | [] => ""
  | parts => intro ++ String.intercalate separator parts

def labelled (dialect : Dialect) (text : String) (label : Option String) : String :=
  match label with
  | some label => text ++ " AS " ++ dialect.identifier label
  | none => text

/-- The alias of a nested select that has none. -/
def nestedLabel : String := "t"

def fieldList (fields : List String) : String :=
  match fields with
  | [] => "*"
  | fields => String.intercalate ", " fields

def parenthesized (text : String) : String := "(" ++ text ++ ")"

end Sql

mutual

def Expr.sql (rendering : Rendering) : Expr → Except Error String
  | .column text => .ok (rendering.dialect.column text)
  | .value literal => .ok (rendering.flavor.value literal)
  | .raw literal => .ok (rendering.flavor.rawValue literal)
  | .call name args => do
    let rendered ← Expr.sqlList rendering args
    rendering.dialect.call name args rendered
  | .operation operator operands => do
    let rendered ← Expr.sqlList rendering operands
    return operationText operator rendered
  | .condition test => test.sql rendering
  | .subquery query => do
    let rendered ← rendering.select query fun _ => query.sql rendering
    return parenthesized rendered

def Expr.sqlList (rendering : Rendering) : List Expr → Except Error (List String)
  | [] => .ok []
  | expr :: more => do
    let rendered ← expr.sql rendering
    let others ← Expr.sqlList rendering more
    return rendered :: others

def Condition.sql (rendering : Rendering) : Condition → Except Error String
  | .compare key value operator => do
    let key ← key.sql rendering
    let value ← value.sql rendering
    return key ++ " " ++ operator.word ++ " " ++ value
  | .between key low high => do
    let key ← key.sql rendering
    let low ← low.sql rendering
    let high ← high.sql rendering
    return key ++ " BETWEEN " ++ low ++ " AND " ++ high
  | .oneOf key values => do
    let key ← key.sql rendering
    let values ← Expr.sqlList rendering values
    return key ++ " IN (" ++ String.intercalate ", " values ++ ")"
  | .noneOf key values => do
    let key ← key.sql rendering
    let values ← Expr.sqlList rendering values
    return key ++ " NOT IN (" ++ String.intercalate ", " values ++ ")"
  | .null key isNull => do
    let key ← key.sql rendering
    return key ++ " IS " ++ (if isNull then "" else "NOT ") ++ "NULL"
  | .like key pattern isLike => do
    let key ← key.sql rendering
    return key ++ " " ++ (if isLike then "" else "NOT ") ++ "LIKE " ++ rendering.dialect.string pattern
  | .columns left right operator => do
    let left ← left.sql rendering
    let right ← right.sql rendering
    return left ++ " " ++ operator.word ++ " " ++ right
  | .logical members operator => do
    let members ← Condition.sqlList rendering members
    return operationText operator.word members
  | .not inner => do
    let inner ← inner.sql rendering
    return "NOT (" ++ inner ++ ")"

def Condition.sqlList (rendering : Rendering) :
    List Condition → Except Error (List String)
  | [] => .ok []
  | condition :: more => do
    let rendered ← condition.sql rendering
    let others ← Condition.sqlList rendering more
    return rendered :: others

/-- The ON clause of a join. -/
def Condition.sqlOn (rendering : Rendering) : Option Condition → Except Error String
  | none => .ok ""
  | some condition => do
    let rendered ← condition.sql rendering
    return " ON " ++ rendered

def Table.sql (rendering : Rendering) : Table → Except Error String
  | .named name label => do
    let (source, nested) ← rendering.naming name
    return labelled rendering.dialect source (if nested then some (label.getD nestedLabel) else label)
  | .nested query label => do
    let source ← rendering.select query fun _ => query.sql rendering
    return labelled rendering.dialect (parenthesized source) (some (label.getD nestedLabel))

def Table.sqlList (rendering : Rendering) : List Table → Except Error (List String)
  | [] => .ok []
  | table :: more => do
    let rendered ← table.sql rendering
    let others ← Table.sqlList rendering more
    return rendered :: others

def Join.sql (rendering : Rendering) : Join → Except Error String
  | ⟨table, condition, kind⟩ => do
    let table ← table.sql rendering
    let condition ← Condition.sqlOn rendering condition
    return kind.word ++ " JOIN " ++ table ++ condition

def Join.sqlList (rendering : Rendering) : List Join → Except Error (List String)
  | [] => .ok []
  | join :: more => do
    let rendered ← join.sql rendering
    let others ← Join.sqlList rendering more
    return rendered :: others

def Field.sql (rendering : Rendering) : Field → Except Error String
  | ⟨expr, label⟩ => do
    let expr ← expr.sql rendering
    return labelled rendering.dialect expr label

def Field.sqlList (rendering : Rendering) : List Field → Except Error (List String)
  | [] => .ok []
  | field :: more => do
    let rendered ← field.sql rendering
    let others ← Field.sqlList rendering more
    return rendered :: others

def SortKey.sql (rendering : Rendering) : SortKey → Except Error String
  | ⟨expr, direction⟩ => do
    let expr ← expr.sql rendering
    return expr ++ " " ++ direction.word

def SortKey.sqlList (rendering : Rendering) : List SortKey → Except Error (List String)
  | [] => .ok []
  | key :: more => do
    let rendered ← key.sql rendering
    let others ← SortKey.sqlList rendering more
    return rendered :: others

/-- Each union tail is joined to all that comes before it. -/
def UnionTail.sqlOnto (rendering : Rendering) (left : String) :
    List UnionTail → Except Error String
  | [] => .ok left
  | ⟨kind, query⟩ :: more => do
    let right ← rendering.select query fun _ => query.sql rendering
    UnionTail.sqlOnto rendering (unionText kind left right) more

def Select.sql (rendering : Rendering) : Select → Except Error String
  | ⟨tables, joins, fields, filter, having, orderBy, groupBy, limit, offset, unions⟩ => do
    let fields ← Field.sqlList rendering fields
    let tables ← Table.sqlList rendering tables
    let joins ← Join.sqlList rendering joins
    let filter ← Condition.sqlList rendering filter
    let groupBy ← Expr.sqlList rendering groupBy
    let having ← Condition.sqlList rendering having
    let orderBy ← SortKey.sqlList rendering orderBy
    let head := "SELECT " ++ fieldList fields ++ clause " FROM " "," tables ++ clause " " " " joins ++
      clause " WHERE " " AND " filter ++ clause " GROUP BY " ", " groupBy ++
      clause " HAVING " " AND " having ++ clause " ORDER BY " ", " orderBy ++
      rendering.dialect.limitOffset limit offset
    UnionTail.sqlOnto rendering head unions

end

/-- The table a mutation works on. Its plain name is rendered as it is. -/
def Table.targetSql (rendering : Rendering) : Table → Except Error String
  | .named name label => .ok (labelled rendering.dialect (rendering.dialect.table name) label)
  | table => table.sql rendering

namespace Sql

def columnList (dialect : Dialect) (columns : List String) : String :=
  parenthesized (String.intercalate ", " (columns.map dialect.identifier))

/-- The values of a row for given columns; a column that the row lacks is null. -/
def rowValues (flavor : Flavor) (columns : List String) (row : Row) : String :=
  parenthesized (String.intercalate ", "
    (columns.map fun column => flavor.value ((row.get? column).getD .null)))

end Sql

/-- The columns are those of the first row; later rows are matched to them by name. -/
def Insert.sql (rendering : Rendering) (mutation : Insert) : Except Error String := do
  let table ← mutation.table.targetSql rendering
  match mutation.source with
  | some (.rows (first :: more)) =>
    let columns := Entries.keys first
    return "INSERT INTO " ++ table ++ " " ++ columnList rendering.dialect columns ++ " VALUES " ++
      String.intercalate ", " ((first :: more).map (rowValues rendering.flavor columns))
  | some (.select query columns) =>
    let columns := match columns with
      | some columns => " " ++ columnList rendering.dialect columns
      | none => ""
    let query ← rendering.select query fun _ => query.sql rendering
    return "INSERT INTO " ++ table ++ columns ++ " " ++ query
  | _ => .error (.missing .insertSource)

def assignmentList (rendering : Rendering) :
    List (String × Expr) → Except Error (List String)
  | [] => .ok []
  | (column, value) :: more => do
    let value ← value.sql rendering
    let others ← assignmentList rendering more
    return (rendering.dialect.identifier column ++ " = " ++ value) :: others

def Update.sql (rendering : Rendering) (mutation : Update) : Except Error String :=
  if mutation.assignments.isEmpty then .error (.missing .assignments)
  else do
    let assignments ← assignmentList rendering mutation.assignments
    let table ← mutation.table.targetSql rendering
    let filter ← Condition.sqlList rendering mutation.filter
    return "UPDATE " ++ table ++ " SET " ++ String.intercalate ", " assignments ++
      clause " WHERE " " AND " filter

def Delete.sql (rendering : Rendering) (mutation : Delete) : Except Error String := do
  let table ← mutation.table.targetSql rendering
  let filter ← Condition.sqlList rendering mutation.filter
  return "DELETE FROM " ++ table ++ clause " WHERE " " AND " filter

def CreateTable.sql (rendering : Rendering) (definition : CreateTable) :
    Except Error String := do
  let query ← rendering.select definition.query fun _ => definition.query.sql rendering
  return "CREATE TABLE " ++ rendering.dialect.table definition.name ++ " AS " ++ query

def CreateView.sql (rendering : Rendering) (definition : CreateView) :
    Except Error String := do
  let query ← rendering.select definition.query fun _ => definition.query.sql rendering
  return "CREATE " ++ (if definition.orReplace then "OR REPLACE " else "") ++ "VIEW " ++
    rendering.dialect.table definition.name ++ " AS " ++ query

def Statement.sqlWith (rendering : Rendering) : Statement → Except Error String
  | .select query => rendering.select query fun _ => query.sql rendering
  | .insert mutation => mutation.sql rendering
  | .update mutation => mutation.sql rendering
  | .delete mutation => mutation.sql rendering
  | .createTable definition => definition.sql rendering
  | .createView definition => definition.sql rendering

def Statement.sql (flavor : Flavor) (statement : Statement) : Except Error String :=
  statement.sqlWith (.plain flavor)

end PortableQuery
