import PortableQuery.Entries

/-!
# TOML documents

Tables are opened by headers and by dotted keys, and each may be opened only once. A table remembers
how it came about: a header `[a.b]` opens `a` only by implication, so a later `[a]` may still open it;
a table made by dotted keys can be extended by dotted keys alone.
-/

namespace PortableQuery.Toml

inductive Node
  | string (text : String)
  | bool (value : Bool)
  | number
  /-- Dates and times. -/
  | moment
  | array (items : List Node)
  | inline (entries : List (String × Node))
  | table (implied dotted : Bool) (entries : List (String × Node))
  /-- An array of tables, opened by double brackets; the last table is the one in use. -/
  | tables (items : List (List (String × Node)))

/-- A table while it is being filled. -/
structure Table where
  dotted : Bool
  entries : Entries Node

/-- Changes the table at a path, opening the tables on the way that do not exist yet. Dotted keys must
not lead through a table that a header has opened. -/
def descend (dotted : Bool) (change : Table → Option Table) :
    List String → Table → Option Table
  | [], table => change table
  | key :: path, table =>
    let put (node : Node) : Table := { table with entries := Entries.insert key node table.entries }
    match table.entries.get? key with
    | none => do
      let inner ← descend dotted change path { dotted, entries := [] }
      return put (.table true dotted inner.entries)
    | some (.table implied innerDotted entries) =>
      if dotted && !implied then none
      else do
        let inner ← descend dotted change path { dotted := innerDotted, entries }
        return put (.table implied innerDotted inner.entries)
    | some (.tables items) =>
      match items.getLast? with
      | none => none
      | some last => do
        let inner ← descend dotted change path { dotted := false, entries := last }
        return put (.tables (items.dropLast ++ [inner.entries]))
    | some _ => none

/-- Sets the value of a key, given as its path and its last part. -/
def assign (path : List String) (key : String) (value : Node) (table : Table) : Option Table :=
  let change (table : Table) : Option Table :=
    if table.dotted == path.isEmpty || (table.entries.get? key).isSome then none
    else some { table with entries := table.entries ++ [(key, value)] }
  descend true change path table

/-- Opens the table of a header `[path.key]`. -/
def openTable (path : List String) (key : String) (root : Table) : Option Table :=
  let change (table : Table) : Option Table :=
    match table.entries.get? key with
    | none => some { table with entries := table.entries ++ [(key, .table false false [])] }
    | some (.table true false entries) =>
      some { table with entries := Entries.insert key (.table false false entries) table.entries }
    | some _ => none
  descend false change path root

/-- Opens a new table of an array by a header `[[path.key]]`. -/
def openArrayTable (path : List String) (key : String) (root : Table) : Option Table :=
  let change (table : Table) : Option Table :=
    match table.entries.get? key with
    | none => some { table with entries := table.entries ++ [(key, .tables [[]])] }
    | some (.tables items) =>
      some { table with entries := Entries.insert key (.tables (items ++ [[]])) table.entries }
    | some _ => none
  descend false change path root

end PortableQuery.Toml
