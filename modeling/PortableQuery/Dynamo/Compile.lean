import PortableQuery.Dynamo.Condition
import PortableQuery.Dynamo.Request
import PortableQuery.Dynamo.Supported

/-!
# Compiling requests

A select becomes a query if a condition on the partition key allows it and a scan otherwise. An
update or delete addresses one item: equalities on the key columns make its key, and all other
conditions make the condition under which it happens.
-/

namespace PortableQuery

open Dynamo

namespace Dynamo

/-- The column of a condition that can take part in a look-up by key. -/
def lookupColumn? : Condition → Option String
  | .compare key _ _ => some key.columnName
  | .between key _ _ => some key.columnName
  | .oneOf key _ => some key.columnName
  | .null key _ => some key.columnName
  | .like key _ _ => some key.columnName
  | _ => none

/-- An equality on a key column. -/
def keyEquality? (options : Options) : Condition → Option (String × Expr)
  | .compare key value .eq =>
    if options.isKey key.columnName then some (key.columnName, value) else none
  | _ => none

def conjunction? (parts : List String) : Option String :=
  if parts.isEmpty then none else some (String.intercalate " AND " parts)

/-- The key attributes that the equalities of a WHERE clause give; a later equality on the same
column overrides an earlier one. -/
def keyAttributes (options : Options) :
    Entries Attribute → List Condition → Except Error (Entries Attribute)
  | key, [] => .ok key
  | key, condition :: more =>
    match keyEquality? options condition with
    | some (column, value) => do
      let value ← value.toAttribute
      keyAttributes options (Entries.insert column value key) more
    | none => keyAttributes options key more

def requireKeys (verb : Verb) (key : Entries Attribute) : List String → Except Error Unit
  | [] => .ok ()
  | name :: more =>
    if (key.get? name).isSome then requireKeys verb key more
    else .error (.missing (.keyEquality verb name))

/-- The key of the item that a WHERE clause addresses. -/
def extractKey (options : Options) (verb : Verb) (filter : List Condition) :
    Except Error (Entries Attribute) :=
  match options.partitionKey with
  | none => .error (.missing (.partitionKey verb))
  | some partitionKey => do
    let key ← keyAttributes options [] filter
    requireKeys verb key (partitionKey :: options.sortKey.toList)
    return key

/-- The conditions of a WHERE clause that are no equality on a key column. -/
def residual (options : Options) (filter : List Condition) : List Condition :=
  filter.filter fun condition => (keyEquality? options condition).isNone

def assignmentPhrases : List (String × Expr) → Except Error (List Phrase)
  | [] => .ok []
  | (column, value) :: more => do
    let value ← value.toAttribute
    let others ← assignmentPhrases more
    return [.name column, .word " = ", .value value] :: others

def itemOf (row : Row) : Entries Attribute :=
  row.map fun (name, value) => (name, Attribute.ofLiteral value)

end Dynamo

def Select.request (options : Options) (query : Select) : Except Error Request := do
  query.checkSupported .dynamodb
  let table ← query.requireTable .dynamodb
  let tableName ← table.requireName .dynamodb
  let phrases ← Condition.phrases query.filter
  let (texts, placeholders) := Placeholders.empty.writeAll phrases
  let onKey (condition : Condition) : Bool :=
    match lookupColumn? condition with
    | some column => options.isKey column
    | none => false
  let tagged := (query.filter.map onKey).zip texts
  let keyConditions := (tagged.filter Prod.fst).map Prod.snd
  let others := (tagged.filter (!·.1)).map Prod.snd
  let (projected, placeholders) :=
    placeholders.writeAll (query.fields.map fun field => [Token.name field.expr.columnName])
  let projection := if projected.isEmpty then none else some (String.intercalate ", " projected)
  let onPartition := options.partitionKey.isSome &&
    query.filter.any fun condition => lookupColumn? condition == options.partitionKey
  if !options.forceScan && onPartition then
    return .query
      { tableName, indexName := options.indexName
        keyCondition := String.intercalate " AND " keyConditions
        filter := conjunction? others, projection
        names := placeholders.nameEntries, values := placeholders.valueEntries
        limit := query.limit
        forward := query.orderBy.head?.map fun key => key.direction == .asc
        consistentRead := options.consistentRead }
  else
    return .scan
      { tableName, indexName := options.indexName
        filter := conjunction? (keyConditions ++ others), projection
        names := placeholders.nameEntries, values := placeholders.valueEntries
        limit := query.limit, consistentRead := options.consistentRead }

def Insert.request (mutation : Insert) : Except Error Request := do
  let tableName ← mutation.table.requireName .dynamodb
  let rows ← mutation.requireRows .dynamodb
  match rows.map itemOf with
  | [item] => return .putItem { tableName, item }
  | items => return .batchWriteItem { tableName, items }

def Update.request (options : Options) (mutation : Update) : Except Error Request := do
  let tableName ← mutation.table.requireName .dynamodb
  if mutation.assignments.isEmpty then .error (.missing .assignments)
  else if mutation.filter.isEmpty then .error (.missing (.whereClause .dynamodb .update))
  else
    let assignments ← assignmentPhrases mutation.assignments
    let key ← extractKey options .update mutation.filter
    let conditions ← Condition.phrases (residual options mutation.filter)
    let (assigned, placeholders) := Placeholders.empty.writeAll assignments
    let (texts, placeholders) := placeholders.writeAll conditions
    return .updateItem
      { tableName, key
        update := "SET " ++ String.intercalate ", " assigned
        condition := conjunction? texts
        names := placeholders.nameEntries, values := placeholders.valueEntries }

def Delete.request (options : Options) (mutation : Delete) : Except Error Request := do
  let tableName ← mutation.table.requireName .dynamodb
  if mutation.filter.isEmpty then .error (.missing (.whereClause .dynamodb .delete))
  else
    let key ← extractKey options .delete mutation.filter
    let conditions ← Condition.phrases (residual options mutation.filter)
    let (texts, placeholders) := Placeholders.empty.writeAll conditions
    return .deleteItem
      { tableName, key
        condition := conjunction? texts
        names := placeholders.nameEntries, values := placeholders.valueEntries }

/-- Compiles a statement into a request of the store's own interface. -/
def Statement.request (options : Options) : Statement → Except Error Request
  | .select query => query.request options
  | .insert mutation => mutation.request
  | .update mutation => mutation.request options
  | .delete mutation => mutation.request options
  | .createTable _ => .error (.unsupported .dynamodb .createTable)
  | .createView _ => .error (.unsupported .dynamodb .createView)

end PortableQuery
