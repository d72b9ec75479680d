import PortableQuery.Error
import PortableQuery.Query.Lineage

/-!
# What a key-value store can express

The clauses of a select that neither backend can evaluate, and the table that a statement is about.
-/

namespace PortableQuery

/-- The first clause of a select that a key-value store cannot evaluate. -/
def Select.unsupported? (query : Select) : Option Feature :=
  if !query.joins.isEmpty then some .join
  else if !query.groupBy.isEmpty then some .groupBy
  else if !query.having.isEmpty then some .having
  else if !query.unions.isEmpty then some .union
  else if query.offset.isSome then some .offset
  else none

def Select.checkSupported (backend : Backend) (query : Select) : Except Error Unit :=
  match query.unsupported? with
  | some feature => .error (.unsupported backend feature)
  | none => .ok ()

def Table.requireName (backend : Backend) (table : Table) : Except Error String :=
  match table.name? with
  | some name => .ok name
  | none => .error (.missing (.tableName backend))

/-- The first table of a select. -/
def Select.requireTable (backend : Backend) (query : Select) : Except Error Table :=
  match query.tables with
  | table :: _ => .ok table
  | [] => .error (.missing (.tableName backend))

/-- The rows of an insert, of which there must be some. -/
def Insert.requireRows (backend : Backend) (mutation : Insert) : Except Error (List Row) :=
  match mutation.source with
  | some (.rows (first :: more)) => .ok (first :: more)
  | some (.select ..) => .error (.unsupported backend .insertSelect)
  | _ => .error (.missing .insertValues)

end PortableQuery
