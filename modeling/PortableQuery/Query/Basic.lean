import PortableQuery.Literal.Basic
import PortableQuery.Query.Operator

/-!
# Queries

Expressions, conditions and selects contain one another, so they are one family of types. The
mutations and the definitions of tables and views stand on top of it.
-/

namespace PortableQuery

mutual

inductive Expr
  /-- A column name or a fragment of SQL. The text may hold identifiers between `#` marks and string
  literals between `&` marks. -/
  | column (text : String)
  /-- A literal, escaped when it is rendered. -/
  | value (literal : Literal)
  /-- A literal, rendered verbatim. -/
  | raw (literal : Literal)
  | call (name : String) (args : List Expr)
  /-- The operands with the operator between them, in parentheses. -/
  | operation (operator : String) (operands : List Expr)
  | condition (test : Condition)
  | subquery (query : Select)

inductive Condition
  | compare (key value : Expr) (operator : Comparison)
  | between (key low high : Expr)
  | oneOf (key : Expr) (values : List Expr)
  | noneOf (key : Expr) (values : List Expr)
  | null (key : Expr) (isNull : Bool)
  | like (key : Expr) (pattern : String) (isLike : Bool)
  /-- A comparison of two columns. -/
  | columns (left right : Expr) (operator : Comparison)
  | logical (members : List Condition) (operator : Connective)
  | not (inner : Condition)

/-- A table by its name or as a nested select, with an optional alias. -/
inductive Table
  | named (name : String) (label : Option String)
  | nested (query : Select) (label : Option String)

structure Join where
  table : Table
  condition : Option Condition
  kind : JoinKind

/-- A selected expression with an optional alias. -/
structure Field where
  expr : Expr
  label : Option String

structure SortKey where
  expr : Expr
  direction : SortDirection

structure UnionTail where
  kind : UnionKind
  query : Select

structure Select where
  tables : List Table
  joins : List Join
  fields : List Field
  filter : List Condition
  having : List Condition
  orderBy : List SortKey
  groupBy : List Expr
  limit : Option UInt64
  offset : Option UInt64
  unions : List UnionTail

end

/-- What a table reference stands for: a name or a nested select. -/
inductive Source
  | name (name : String)
  | select (query : Select)

def Table.ofSource (source : Source) (label : Option String) : Table :=
  match source with
  | .name name => .named name label
  | .select query => .nested query label

abbrev Row := Entries Literal

/-- Where the rows of an insert come from. -/
inductive InsertSource
  | rows (rows : List Row)
  | select (query : Select) (columns : Option (List String))

structure Insert where
  table : Table
  source : Option InsertSource

structure Update where
  table : Table
  assignments : Entries Expr
  filter : List Condition

structure Delete where
  table : Table
  filter : List Condition

structure CreateTable where
  name : String
  query : Select

structure CreateView where
  name : String
  query : Select
  orReplace : Bool

inductive Statement
  | select (query : Select)
  | insert (mutation : Insert)
  | update (mutation : Update)
  | delete (mutation : Delete)
  | createTable (definition : CreateTable)
  | createView (definition : CreateView)

/-- A select with nothing in it yet. -/
def Select.empty : Select :=
  { tables := [], joins := [], fields := [], filter := [], having := [], orderBy := [],
    groupBy := [], limit := none, offset := none, unions := [] }

instance : Inhabited Select := ⟨Select.empty⟩

/-- The text of a literal or of a column, where the text itself is wanted and not its rendering. -/
def Expr.literalText? : Expr → Option String
  | .column text => some text
  | .value literal => some literal.plain
  | .raw literal => some literal.plain
  | _ => none

/-- The key of a condition on a single column. -/
def Condition.key? : Condition → Option Expr
  | .compare key _ _ => some key
  | .between key _ _ => some key
  | .oneOf key _ => some key
  | .noneOf key _ => some key
  | .null key _ => some key
  | .like key _ _ => some key
  | _ => none

/-- The rows of an insert, if it has any rows of its own. -/
def Insert.rows? (mutation : Insert) : Option (List Row) :=
  match mutation.source with
  | some (.rows rows) => some rows
  | _ => none

/-- What a statement does, in one word. -/
def Statement.operation : Statement → String
  | .select _ => "select"
  | .insert _ => "insert"
  | .update _ => "update"
  | .delete _ => "delete"
  | .createTable _ => "create_table_as"
  | .createView _ => "create_view_as"

end PortableQuery
