import PortableQuery.Json.Basic
import PortableQuery.Text.Numeral

/-!
# Records

The members of statements, read by type before their contents are looked at. A record is an object,
whose unknown members are ignored, or an array of its fields in their order, whose last fields may
be missing. Where a member is of the wrong type or a required one is missing there is no record.
-/

namespace PortableQuery.Wire

open Text

/-- The fields of a record, as named entries. -/
def fields? (names : List String) : Json → Option (Entries Json)
  | .object members => some members
  | .array items => if items.length ≤ names.length then some (names.zip items) else none
  | _ => none

def requiredString? (entries : Entries Json) (name : String) : Option String :=
  (entries.get? name).bind Json.string?

/-- A string that may be missing but not of another type. -/
def tagIsString (entries : Entries Json) (name : String) : Bool :=
  match entries.get? name with
  | none => true
  | some (.string _) => true
  | some _ => false

/-- A string, `none` if it is missing or null. -/
def optionalString? (entries : Entries Json) (name : String) : Option (Option String) :=
  match entries.get? name with
  | none => some none
  | some .null => some none
  | some (.string text) => some (some text)
  | some _ => none

def optionalJson (entries : Entries Json) (name : String) : Option Json :=
  match entries.get? name with
  | none => none
  | some .null => none
  | some json => some json

/-- An unsigned 64-bit integer, `none` if it is missing or null. -/
def optionalWord? (entries : Entries Json) (name : String) : Option (Option UInt64) :=
  match entries.get? name with
  | none => some none
  | some .null => some none
  | some (.integer n) => (Numeral.uint64? n).map some
  | some _ => none

/-- A list, empty if it is missing. -/
def listField? (entries : Entries Json) (name : String) : Option (List Json) :=
  match entries.get? name with
  | none => some []
  | some (.array items) => some items
  | some _ => none

/-- A truth value, false if it is missing. -/
def boolField? (entries : Entries Json) (name : String) : Option Bool :=
  match entries.get? name with
  | none => some false
  | some (.bool value) => some value
  | some _ => none

structure TableRecord where
  source : Json
  label : Option String

structure JoinRecord where
  table : TableRecord
  condition : Option Json
  kind : Option String

structure FieldRecord where
  name : Json
  label : Option String

structure SortRecord where
  field : Json
  direction : Option String

structure SelectRecord where
  tables : List TableRecord
  unions : List (String × SelectRecord)
  joins : List JoinRecord
  fields : List FieldRecord
  filter : List Json
  having : List Json
  orderBy : List SortRecord
  groupBy : List Json
  limit : Option UInt64
  offset : Option UInt64

def TableRecord.ofJson? (json : Json) : Option TableRecord := do
  let entries ← fields? ["type", "source", "alias"] json
  guard (tagIsString entries "type")
  let source ← entries.get? "source"
  let label ← optionalString? entries "alias"
  return { source, label }

def JoinRecord.ofJson? (json : Json) : Option JoinRecord := do
  let entries ← fields? ["type", "table", "condition", "joinType"] json
  guard (tagIsString entries "type")
  let table ← (entries.get? "table").bind TableRecord.ofJson?
  let kind ← optionalString? entries "joinType"
  return { table, condition := optionalJson entries "condition", kind }

def FieldRecord.ofJson? (json : Json) : Option FieldRecord := do
  let entries ← fields? ["name", "alias"] json
  let name ← entries.get? "name"
  let label ← optionalString? entries "alias"
  return { name, label }

def SortRecord.ofJson? (json : Json) : Option SortRecord := do
  let entries ← fields? ["field", "direction"] json
  let field ← entries.get? "field"
  let direction ← optionalString? entries "direction"
  return { field, direction }

/-- The kind and the query of a union tail. -/
def unionFields? (json : Json) : Option (String × Json) := do
  let entries ← fields? ["type", "query"] json
  let kind ← requiredString? entries "type"
  let query ← entries.get? "query"
  return (kind, query)

def selectFieldNames : List String :=
  ["type", "tables", "unionQueries", "joins", "fields", "where", "having", "orderBy", "groupBy",
    "limit", "offset"]

/-- Reads a select and its union tails, which nest; `fuel` bounds the nesting. -/
def SelectRecord.ofJson? : Nat → Json → Option SelectRecord
  | 0, _ => none
  | fuel + 1, json => do
    let entries ← fields? selectFieldNames json
    let _ ← requiredString? entries "type"
    let tables ← (← listField? entries "tables").mapM TableRecord.ofJson?
    let unions ← (← listField? entries "unionQueries").mapM fun json => do
      let (kind, query) ← unionFields? json
      let query ← SelectRecord.ofJson? fuel query
      return (kind, query)
    let joins ← (← listField? entries "joins").mapM JoinRecord.ofJson?
    let fields ← (← listField? entries "fields").mapM FieldRecord.ofJson?
    let filter ← listField? entries "where"
    let having ← listField? entries "having"
    let orderBy ← (← listField? entries "orderBy").mapM SortRecord.ofJson?
    let groupBy ← listField? entries "groupBy"
    let limit ← optionalWord? entries "limit"
    let offset ← optionalWord? entries "offset"
    return { tables, unions, joins, fields, filter, having, orderBy, groupBy, limit, offset }

/-- An insert's two possible sources: rows of JSON, and a select with optional column names. -/
structure InsertRecord where
  table : TableRecord
  rows : Option (List (Entries Json))
  select : Option (SelectRecord × Option (List String))

def rowsField? (entries : Entries Json) : Option (Option (List (Entries Json))) :=
  match entries.get? "values" with
  | none => some none
  | some .null => some none
  | some (.array items) => (items.mapM Json.members?).map some
  | some _ => none

def columnsOf? : Json → Option (Option (List String))
  | .null => some none
  | .array names => (names.mapM Json.string?).map some
  | _ => none

def insertSelect? (fuel : Nat) (entries : Entries Json) :
    Option (Option (SelectRecord × Option (List String))) :=
  match entries.get? "select" with
  | none => some none
  | some .null => some none
  | some (.array [query, columns]) => do
    let query ← SelectRecord.ofJson? fuel query
    let columns ← columnsOf? columns
    return some (query, columns)
  | some _ => none

def InsertRecord.ofJson? (fuel : Nat) (entries : Entries Json) : Option InsertRecord := do
  let table ← (entries.get? "table").bind TableRecord.ofJson?
  let rows ← rowsField? entries
  let select ← insertSelect? fuel entries
  return { table, rows, select }

structure UpdateRecord where
  table : TableRecord
  assignments : Entries Json
  filter : List Json

def UpdateRecord.ofJson? (entries : Entries Json) : Option UpdateRecord := do
  let table ← (entries.get? "table").bind TableRecord.ofJson?
  let assignments ← match entries.get? "values" with
    | none => some []
    | some json => json.members?
  let filter ← listField? entries "where"
  return { table, assignments, filter }

structure DeleteRecord where
  table : TableRecord
  filter : List Json

def DeleteRecord.ofJson? (entries : Entries Json) : Option DeleteRecord := do
  let table ← (entries.get? "table").bind TableRecord.ofJson?
  let filter ← listField? entries "where"
  return { table, filter }

/-- The name and the query of a table or view that is created from a select. -/
def createFields? (fuel : Nat) (nameField : String) (entries : Entries Json) :
    Option (String × SelectRecord) := do
  let name ← requiredString? entries nameField
  let query ← (entries.get? "select").bind (SelectRecord.ofJson? fuel)
  return (name, query)

end PortableQuery.Wire
