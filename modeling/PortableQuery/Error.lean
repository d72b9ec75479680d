import PortableQuery.Json.Printer

/-!
# Errors

Every failure of the library is a cause; the wording is in one place, `Error.message`.
-/

namespace PortableQuery

/-- The backends that refuse part of the language. -/
inductive Backend
  | dynamodb
  | partiql
  deriving DecidableEq

def Backend.name : Backend → String
  | .dynamodb => "DynamoDB"
  | .partiql => "DynamoDB PartiQL"

/-- The mutations that address items by their key. -/
inductive Verb
  | update
  | delete
  deriving DecidableEq

def Verb.word : Verb → String
  | .update => "UPDATE"
  | .delete => "DELETE"

/-- Builder calls that exclude each other. -/
inductive Conflict
  | selectSet
  | valuesSet
  | bothSources
  deriving DecidableEq

/-- What a statement lacks. -/
inductive Missing
  | insertSource
  | insertValues
  | assignments
  | tableName (backend : Backend)
  | whereClause (backend : Backend) (verb : Verb)
  | partitionKey (verb : Verb)
  | keyEquality (verb : Verb) (key : String)
  deriving DecidableEq

/-- What a backend cannot express. -/
inductive Feature
  | join
  | groupBy
  | having
  | union
  | offset
  | insertSelect
  | createTable
  | createView
  | binaryValue
  | subquery
  | computedValue (text : String)
  deriving DecidableEq

/-- Values that cannot be used where they stand. -/
inductive Invalid
  | functionAsValue
  | templateValue (text : String)
  | functionText (text : String)
  | date (text : String)
  | operator (text : String)
  | sortDirection (text : String)
  | tableSource (text : String)
  | dateAddCount (count : Nat)
  | dateAddInterval (text : String)
  | dateAddUnit (text : String)
  deriving DecidableEq

/-- The kinds of things that are told apart by a name. -/
inductive Noun
  | statement
  | condition
  | union
  | join
  | flavor
  deriving DecidableEq

def Noun.word : Noun → String
  | .statement => "statement"
  | .condition => "condition"
  | .union => "union"
  | .join => "join"
  | .flavor => "flavor"

/-- What is wrong with a configuration. -/
inductive Misconfiguration
  | malformed
  | malformedFile (path : String)
  | unknownZone (name : String)
  deriving DecidableEq

/-- Why a file cannot be read. -/
inductive FileFault
  | missing
  | notDirectory
  | isDirectory
  | nameTooLong
  | denied
  | notText
  deriving DecidableEq

inductive Error
  | build (cause : Conflict)
  | missing (cause : Missing)
  | unsupported (backend : Backend) (feature : Feature)
  | invalid (cause : Invalid)
  | unknownType (noun : Noun) (name : String)
  | unreadable (cause : Error)
  | json
  | configuration (cause : Misconfiguration)
  | file (fault : FileFault)
  deriving DecidableEq

def Conflict.message : Conflict → String
  | .selectSet => "select already set"
  | .valuesSet => "values already set"
  | .bothSources => "insert cannot have both values and select"

def Missing.message : Missing → String
  | .insertSource => "values or select must be set for insert query"
  | .insertValues => "INSERT requires values"
  | .assignments => "UPDATE requires at least one value to set"
  | .tableName backend => backend.name ++ " requires a table name"
  | .whereClause .dynamodb verb => "DynamoDB " ++ verb.word ++ " requires a WHERE clause with the key"
  | .whereClause .partiql verb =>
    "DynamoDB " ++ verb.word ++ " requires a WHERE clause with the primary key"
  | .partitionKey verb => "DynamoDB " ++ verb.word ++ " requires a configured partition key"
  | .keyEquality verb key =>
    "DynamoDB " ++ verb.word ++ " requires an equality condition on key '" ++ key ++ "'"

def Feature.message (backend : Backend) : Feature → String
  | .join => "DynamoDB does not support JOIN operations"
  | .groupBy => "DynamoDB does not support GROUP BY"
  | .having => "DynamoDB does not support HAVING"
  | .union => "DynamoDB does not support UNION"
  | .offset => "DynamoDB does not support OFFSET. Use ExclusiveStartKey for pagination."
  | .insertSelect => backend.name ++ " does not support INSERT ... SELECT"
  | .createTable => backend.name ++ " does not support CREATE TABLE AS SELECT"
  | .createView => backend.name ++ " does not support CREATE VIEW AS SELECT"
  | .binaryValue => backend.name ++ " does not support binary values"
  | .subquery => backend.name ++ " does not support subqueries"
  | .computedValue text => backend.name ++ " does not support computed values: " ++ text

def Invalid.message : Invalid → String
  | .functionAsValue => "FunctionExpression cannot be used as a value"
  | .templateValue text => "Invalid expression value: " ++ text
  | .functionText text => "Invalid function expression: '" ++ text ++ "'"
  | .date text => "Invalid date value: " ++ text
  | .operator text => "Invalid operator: " ++ text
  | .sortDirection text => "Invalid sort direction: " ++ text
  | .tableSource text => "Invalid table source: " ++ text
  | .dateAddCount count => "DATEADD expects 3 arguments, got " ++ Text.Numeral.ofNat count
  | .dateAddInterval text => "Invalid DATEADD interval: " ++ text
  | .dateAddUnit text => "Invalid DATEADD interval type: " ++ text

def Misconfiguration.message : Misconfiguration → String
  | .malformed => "TOML parse error"
  | .malformedFile path => path ++ ": TOML parse error"
  | .unknownZone name => "Unknown time zone: " ++ name

def FileFault.message : FileFault → String
  | .missing => "No such file or directory (os error 2)"
  | .notDirectory => "Not a directory (os error 20)"
  | .isDirectory => "Is a directory (os error 21)"
  | .denied => "Permission denied (os error 13)"
  | .nameTooLong => "File name too long (os error 36)"
  | .notText => "stream did not contain valid UTF-8"

def Error.message : Error → String
  | .build cause => cause.message
  | .missing cause => cause.message
  | .unsupported backend feature => feature.message backend
  | .invalid cause => cause.message
  | .unknownType noun name => "Unknown " ++ noun.word ++ " type: " ++ name
  | .unreadable cause => "Error parsing query: " ++ cause.message
  | .json => "JSON error"
  | .configuration cause => "Configuration error: " ++ cause.message
  | .file fault => "IO error: " ++ fault.message

end PortableQuery
