import PortableQuery.Query.Basic

/-!
# Lineage

The names of the tables a statement touches, in the order in which they are first seen. A nested
select counts with the first of its own tables.
-/

namespace PortableQuery

/-- Every element once, at its first place. -/
def firstSeen : List String → List String → List String
  | seen, [] => seen.reverse
  | seen, name :: more => if name ∈ seen then firstSeen seen more else firstSeen (name :: seen) more

def distinct (names : List String) : List String := firstSeen [] names

mutual

/-- The name of a table, for a nested select that of its first table. -/
def Table.name? : Table → Option String
  | .named name _ => some name
  | .nested query _ => query.firstTableName?

def Select.firstTableName? : Select → Option String
  | ⟨tables, _, _, _, _, _, _, _, _, _⟩ => Table.firstName? tables

def Table.firstName? : List Table → Option String
  | [] => none
  | table :: _ => table.name?

end

mutual

def Select.tableNames : Select → List String
  | ⟨tables, joins, _, _, _, _, _, _, _, unions⟩ =>
    distinct (tables.filterMap Table.name? ++ joins.filterMap (fun join => join.table.name?) ++
      UnionTail.tableNames unions)

def UnionTail.tableNames : List UnionTail → List String
  | [] => []
  | ⟨_, query⟩ :: more => query.tableNames ++ UnionTail.tableNames more

end

def Insert.tableNames (mutation : Insert) : List String :=
  let own := mutation.table.name?.toList
  match mutation.source with
  | some (.select query _) => distinct (own ++ query.tableNames)
  | _ => own

def Statement.tableNames : Statement → List String
  | .select query => query.tableNames
  | .insert mutation => mutation.tableNames
  | .update mutation => mutation.table.name?.toList
  | .delete mutation => mutation.table.name?.toList
  | .createTable definition => definition.name :: definition.query.tableNames
  | .createView definition => definition.name :: definition.query.tableNames

end PortableQuery
