import PortableQuery.Error
import PortableQuery.Query.Basic

/-!
# Building statements

Every step returns a new statement. A step that is given no condition leaves the statement as it is.
-/

namespace PortableQuery

namespace Select

/-- Replaces all tables by one. -/
def setTable (query : Select) (table : Table) : Select := { query with tables := [table] }

def addJoin (query : Select) (kind : JoinKind) (table : Table) (condition : Option Condition) :
    Select :=
  { query with joins := query.joins ++ [{ table, condition, kind }] }

def addFields (query : Select) (fields : List Field) : Select :=
  { query with fields := query.fields ++ fields }

def setFields (query : Select) (fields : List Field) : Select := { query with fields := fields }

def addFilter (query : Select) (condition : Option Condition) : Select :=
  { query with filter := query.filter ++ condition.toList }

def addHaving (query : Select) (condition : Option Condition) : Select :=
  { query with having := query.having ++ condition.toList }

def addSortKey (query : Select) (expr : Expr) (direction : SortDirection) : Select :=
  { query with orderBy := query.orderBy ++ [{ expr, direction }] }

def addGroups (query : Select) (groups : List Expr) : Select :=
  { query with groupBy := query.groupBy ++ groups }

def addUnion (query : Select) (kind : UnionKind) (tail : Select) : Select :=
  { query with unions := query.unions ++ [{ kind, query := tail }] }

/-- A select over a placeholder for a table, to be filled in later. -/
def stats : Select := empty.setTable (.named "(?)" (some "t"))

end Select

namespace Insert

def ofTable (table : Table) : Insert := { table, source := none }

/-- Adds rows to an insert that does not take its rows from a select. -/
def addRows (mutation : Insert) (rows : List Row) : Except Error Insert :=
  match mutation.source with
  | some (.select ..) => .error (.build .selectSet)
  | some (.rows present) => .ok { mutation with source := some (.rows (present ++ rows)) }
  | none => .ok { mutation with source := some (.rows rows) }

/-- Takes the rows from a select, unless there are rows already. -/
def setSelect (mutation : Insert) (query : Select) (columns : Option (List String)) :
    Except Error Insert :=
  match mutation.source with
  | some (.rows _) => .error (.build .valuesSet)
  | _ => .ok { mutation with source := some (.select query columns) }

def clearRows (mutation : Insert) : Insert :=
  match mutation.source with
  | some (.rows _) => { mutation with source := none }
  | _ => mutation

end Insert

namespace Update

def ofTable (table : Table) : Update := { table, assignments := [], filter := [] }

def set (mutation : Update) (column : String) (value : Expr) : Update :=
  { mutation with assignments := Entries.insert column value mutation.assignments }

def setAll (mutation : Update) (assignments : List (String × Expr)) : Update :=
  { mutation with assignments := Entries.insertAll mutation.assignments assignments }

def addFilter (mutation : Update) (condition : Option Condition) : Update :=
  { mutation with filter := mutation.filter ++ condition.toList }

end Update

namespace Delete

def ofTable (table : Table) : Delete := { table, filter := [] }

def addFilter (mutation : Delete) (condition : Option Condition) : Delete :=
  { mutation with filter := mutation.filter ++ condition.toList }

end Delete

end PortableQuery
