import PortableQuery.Dynamo.Attribute
import PortableQuery.Json.Printer

/-!
# Requests

The inputs of the operations of a key-value store, and their JSON.
-/

namespace PortableQuery.Dynamo

/-- The key schema of a table and settings for reading from it. -/
structure Options where
  partitionKey : Option String
  sortKey : Option String
  indexName : Option String
  consistentRead : Bool
  forceScan : Bool
  deriving DecidableEq

def Options.default : Options :=
  { partitionKey := none, sortKey := none, indexName := none, consistentRead := false,
    forceScan := false }

/-- Whether a column is the partition key or the sort key. -/
def Options.isKey (options : Options) (column : String) : Bool :=
  options.partitionKey == some column || options.sortKey == some column

structure QueryRequest where
  tableName : String
  indexName : Option String
  keyCondition : String
  filter : Option String
  projection : Option String
  names : Entries String
  values : Entries Attribute
  limit : Option UInt64
  forward : Option Bool
  consistentRead : Bool

structure ScanRequest where
  tableName : String
  indexName : Option String
  filter : Option String
  projection : Option String
  names : Entries String
  values : Entries Attribute
  limit : Option UInt64
  consistentRead : Bool

structure PutRequest where
  tableName : String
  item : Entries Attribute

structure UpdateRequest where
  tableName : String
  key : Entries Attribute
  update : String
  condition : Option String
  names : Entries String
  values : Entries Attribute

structure DeleteRequest where
  tableName : String
  key : Entries Attribute
  condition : Option String
  names : Entries String
  values : Entries Attribute

structure BatchRequest where
  tableName : String
  items : List (Entries Attribute)

inductive Request
  | query (input : QueryRequest)
  | scan (input : ScanRequest)
  | putItem (input : PutRequest)
  | updateItem (input : UpdateRequest)
  | deleteItem (input : DeleteRequest)
  | batchWriteItem (input : BatchRequest)

/-! ## JSON -/

def attributesJson (entries : Entries Attribute) : Json :=
  .object (entries.map fun (name, value) => (name, value.toJson))

def stringMember (name text : String) : String × Json := (name, .string text)

def optionalMember (name : String) (text : Option String) : List (String × Json) :=
  (text.map (stringMember name)).toList

/-- The placeholders of a request, left out where there are none. -/
def placeholderMembers (names : Entries String) (values : Entries Attribute) :
    List (String × Json) :=
  (if names.isEmpty then []
    else [("ExpressionAttributeNames", .object (names.map fun (mark, name) => (mark, .string name)))]) ++
  (if values.isEmpty then [] else [("ExpressionAttributeValues", attributesJson values)])

def limitMember (limit : Option UInt64) : List (String × Json) :=
  (limit.map fun n => ("Limit", Json.integer n.toNat)).toList

/-- A setting that is written only when it is on. -/
def consistentMember (consistent : Bool) : List (String × Json) :=
  if consistent then [("ConsistentRead", .bool true)] else []

namespace Request

/-- The operation that the request is for. -/
def kind : Request → String
  | .query _ => "Query"
  | .scan _ => "Scan"
  | .putItem _ => "PutItem"
  | .updateItem _ => "UpdateItem"
  | .deleteItem _ => "DeleteItem"
  | .batchWriteItem _ => "BatchWriteItem"

def toJson : Request → Json
  | .query input =>
    .object ([stringMember "TableName" input.tableName] ++
      optionalMember "IndexName" input.indexName ++
      [stringMember "KeyConditionExpression" input.keyCondition] ++
      optionalMember "FilterExpression" input.filter ++
      optionalMember "ProjectionExpression" input.projection ++
      placeholderMembers input.names input.values ++ limitMember input.limit ++
      (input.forward.map fun forward => ("ScanIndexForward", Json.bool forward)).toList ++
      consistentMember input.consistentRead)
  | .scan input =>
    .object ([stringMember "TableName" input.tableName] ++
      optionalMember "IndexName" input.indexName ++
      optionalMember "FilterExpression" input.filter ++
      optionalMember "ProjectionExpression" input.projection ++
      placeholderMembers input.names input.values ++ limitMember input.limit ++
      consistentMember input.consistentRead)
  | .putItem input =>
    .object [stringMember "TableName" input.tableName, ("Item", attributesJson input.item)]
  | .updateItem input =>
    .object ([stringMember "TableName" input.tableName, ("Key", attributesJson input.key),
        stringMember "UpdateExpression" input.update] ++
      optionalMember "ConditionExpression" input.condition ++
      placeholderMembers input.names input.values)
  | .deleteItem input =>
    .object ([stringMember "TableName" input.tableName, ("Key", attributesJson input.key)] ++
      optionalMember "ConditionExpression" input.condition ++
      placeholderMembers input.names input.values)
  | .batchWriteItem input =>
    .object [("RequestItems", .object [(input.tableName, .array (input.items.map fun item =>
      .object [("PutRequest", .object [("Item", attributesJson item)])]))])]

end Request

end PortableQuery.Dynamo
