import PortableQuery.Error
import PortableQuery.Json.Reader
import PortableQuery.Query.Basic
import PortableQuery.Wire.Literal
import PortableQuery.Wire.Record

/-!
# Reading queries

Expressions are read from strings by their sentinel, conditions and statements from JSON objects by
their `type`. Each kind of slot has a reader of its own: in the slot of a column plain text is a
column, in the slot of a value it is a string literal.

Strings inside JSON hold JSON in turn. Every step into a string or a member leaves less text, so a
bound computed from the length of the input never runs out.
-/

namespace PortableQuery

open Text Calendar

namespace Json

mutual

/-- A bound on how often text can be found inside text: characters of strings and nodes. -/
def weight : Json → Nat
  | .string text => text.length + 1
  | .array items => weightItems items + 1
  | .object members => weightMembers members + 1
  | _ => 1

def weightItems : List Json → Nat
  | [] => 0
  | item :: more => weight item + weightItems more

def weightMembers : List (String × Json) → Nat
  | [] => 0
  | (_, value) :: more => weight value + weightMembers more

end

end Json

namespace Wire

def conditionTypes : List String :=
  ["BinaryCondition", "LogicalCondition", "BetweenCondition", "InCondition", "NotInCondition",
    "NullCondition", "LikeCondition", "ColumnComparisonCondition", "NotCondition"]

/-- Objects whose `type` names a condition. -/
def isConditionJson (json : Json) : Bool :=
  match json.typeName? with
  | some name => conditionTypes.contains name
  | none => false

def isSelectJson (json : Json) : Bool := json.typeName? == some "SelectQuery"

/-- The JSON of a text that begins like an object and holds a condition. -/
def conditionJson? (text : String) : Option Json :=
  if startsWith "\x7b" text then
    match Json.parse text with
    | some json => if isConditionJson json then some json else none
    | none => none
  else none

def parseJson (text : String) : Except Error Json :=
  match Json.parse text with
  | some json => .ok json
  | none => .error .json

def orJsonError {α : Type} : Option α → Except Error α
  | some value => .ok value
  | none => .error .json

def comparison (text : String) : Except Error Comparison :=
  match Comparison.ofWord? text with
  | some operator => .ok operator
  | none => .error (.invalid (.operator text))

def connective (text : String) : Except Error Connective :=
  match Connective.ofWord? text with
  | some operator => .ok operator
  | none => .error (.invalid (.operator text))

def unionKind (text : String) : Except Error UnionKind :=
  match UnionKind.ofWord? text with
  | some kind => .ok kind
  | none => .error (.unknownType .union text)

/-- An inner join where no kind is given. -/
def joinKind : Option String → Except Error JoinKind
  | none => .ok .inner
  | some text =>
    match JoinKind.ofWord? text with
    | some kind => .ok kind
    | none => .error (.unknownType .join text)

/-- Ascending where no direction is given. -/
def sortDirection : Option String → Except Error SortDirection
  | none => .ok .asc
  | some text =>
    match SortDirection.ofWord? text with
    | some direction => .ok direction
    | none => .error (.invalid (.sortDirection text))

def dateExpr (millis : Int64) : Except Error Expr :=
  match Instant.ofMillis? millis.toInt with
  | some instant => .ok (.value (.date instant))
  | none => .error (.invalid (.date (Literal.intText millis)))

/-- The name and the arguments of a call, from the payload of its sentinel. -/
def callParts (payload whole : String) : Except Error (String × List Json) :=
  match Json.parse payload with
  | some (.array (.string name :: args)) => .ok (name, args)
  | some (.array _) => .error (.invalid (.functionText whole))
  | _ => .error .json

mutual

/-- An expression in the slot of a column: plain text is a column. -/
def exprOfText : Nat → String → Except Error Expr
  | 0, _ => .error .json
  | fuel + 1, text =>
    match Sentinel.classify text with
    | some (.value payload) => do
      let json ← parseJson payload
      if isSelectJson json then
        return .subquery (← selectOfJson fuel json)
      else
        return .value (Literal.ofPayload json)
    | some (.date millis) => dateExpr millis
    | some (.raw payload) => do
      let json ← parseJson payload
      return .raw (Literal.ofJson json)
    | some (.call payload) => do
      let (name, args) ← callParts payload text
      return .call name (← args.mapM (exprOfJson fuel))
    | some (.operation payload) => do
      let (name, args) ← callParts payload text
      return .operation name (← args.mapM (exprOfJson fuel))
    | none =>
      if looksLikeDate text then .error (.invalid (.date text))
      else match conditionJson? text with
        | some json => do return .condition (← conditionOfJson fuel json)
        | none => .ok (.column text)

/-- An expression in a slot that holds any JSON: other scalars are the text of a column. -/
def exprOfJson : Nat → Json → Except Error Expr
  | 0, _ => .error .json
  | fuel + 1, json =>
    match json with
    | .string text => exprOfText fuel text
    | .null => .ok (.value .null)
    | json =>
      if isConditionJson json then do return .condition (← conditionOfJson fuel json)
      else .ok (.column json.compact)

/-- An expression in the slot of a value: plain text is a string literal and a function call is
refused. -/
def valueOfJson : Nat → Json → Except Error Expr
  | 0, _ => .error .json
  | fuel + 1, json =>
    match json with
    | .string text =>
      match Sentinel.classify text with
      | some (.call _) => .error (.invalid .functionAsValue)
      | some _ => exprOfText fuel text
      | none =>
        match conditionJson? text with
        | some json => do return .condition (← conditionOfJson fuel json)
        | none => .ok (.value (.string text))
    | json => .ok (.value (Literal.ofJson json))

/-- A condition, by its `type`. All members are read by type before the first of them is decoded. -/
def conditionOfJson : Nat → Json → Except Error Condition
  | 0, _ => .error .json
  | fuel + 1, json =>
    let name := json.typeName?.getD ""
    let member (field : String) : Except Error Json := orJsonError (json.get? field)
    let text (field : String) : Except Error String :=
      orJsonError ((json.get? field).bind Json.string?)
    let flag (field : String) : Except Error Bool := orJsonError ((json.get? field).bind Json.bool?)
    let list (field : String) : Except Error (List Json) :=
      orJsonError ((json.get? field).bind Json.array?)
    if name = "BinaryCondition" then do
      let key ← text "key"
      let value ← member "value"
      let operator ← text "operator"
      return .compare (← exprOfText fuel key) (← valueOfJson fuel value) (← comparison operator)
    else if name = "LogicalCondition" then do
      let members ← list "conditions"
      let operator ← text "operator"
      return .logical (← members.mapM (conditionOfJson fuel)) (← connective operator)
    else if name = "BetweenCondition" then do
      let key ← text "key"
      let low ← member "from"
      let high ← member "to"
      return .between (← exprOfText fuel key) (← valueOfJson fuel low) (← valueOfJson fuel high)
    else if name = "InCondition" then do
      let key ← text "key"
      let values ← list "values"
      return .oneOf (← exprOfText fuel key) (← values.mapM (valueOfJson fuel))
    else if name = "NotInCondition" then do
      let key ← text "key"
      let values ← list "values"
      return .noneOf (← exprOfText fuel key) (← values.mapM (valueOfJson fuel))
    else if name = "NullCondition" then do
      let key ← text "key"
      let isNull ← flag "isNull"
      return .null (← exprOfText fuel key) isNull
    else if name = "LikeCondition" then do
      let key ← text "key"
      let pattern ← text "pattern"
      let isLike ← flag "isLike"
      return .like (← exprOfText fuel key) pattern isLike
    else if name = "ColumnComparisonCondition" then do
      let left ← text "leftKey"
      let right ← text "rightKey"
      let operator ← text "operator"
      return .columns (← exprOfText fuel left) (← exprOfText fuel right) (← comparison operator)
    else if name = "NotCondition" then do
      let inner ← member "condition"
      return .not (← conditionOfJson fuel inner)
    else .error (.unknownType .condition name)

def tableOfRecord : Nat → TableRecord → Except Error Table
  | 0, _ => .error .json
  | fuel + 1, record =>
    match record.source with
    | .string name => .ok (.named name record.label)
    | json =>
      if isSelectJson json then do return .nested (← selectOfJson fuel json) record.label
      else .error (.invalid (.tableSource json.compact))

def selectOfRecord : Nat → SelectRecord → Except Error Select
  | 0, _ => .error .json
  | fuel + 1, record => do
    let unions ← record.unions.mapM fun (kind, query) => do
      let kind ← unionKind kind
      let query ← selectOfRecord fuel query
      return { kind, query : UnionTail }
    let joins ← record.joins.mapM fun join => do
      let kind ← joinKind join.kind
      let table ← tableOfRecord fuel join.table
      let condition ← match join.condition with
        | none => .ok none
        | some json => (conditionOfJson fuel json).map some
      return { table, condition, kind : Join }
    let fields ← record.fields.mapM fun field => do
      let expr ← exprOfJson fuel field.name
      return { expr, label := field.label : Field }
    let orderBy ← record.orderBy.mapM fun key => do
      let direction ← sortDirection key.direction
      let expr ← exprOfJson fuel key.field
      return { expr, direction : SortKey }
    let tables ← record.tables.mapM (tableOfRecord fuel)
    let filter ← record.filter.mapM (conditionOfJson fuel)
    let having ← record.having.mapM (conditionOfJson fuel)
    let groupBy ← record.groupBy.mapM (exprOfJson fuel)
    return { tables, joins, fields, filter, having, orderBy, groupBy, limit := record.limit,
             offset := record.offset, unions }

def selectOfJson : Nat → Json → Except Error Select
  | 0, _ => .error .json
  | fuel + 1, json =>
    match SelectRecord.ofJson? (fuel + 1) json with
    | some record => selectOfRecord fuel record
    | none => .error .json

end

/-- An assigned value: text is read like a column's, other JSON like a value. -/
def assignmentOfJson (fuel : Nat) : Json → Except Error Expr
  | .string text => exprOfText fuel text
  | json => valueOfJson fuel json

def rowOfEntries (entries : Entries Json) : Row :=
  entries.map fun (name, value) => (name, Literal.ofJson value)

def insertOfEntries (fuel : Nat) (entries : Entries Json) : Except Error Insert := do
  let record ← orJsonError (InsertRecord.ofJson? fuel entries)
  match record.rows, record.select with
  | some _, some _ => .error (.build .bothSources)
  | some rows, none => do
    let table ← tableOfRecord fuel record.table
    return { table, source := some (.rows (rows.map rowOfEntries)) }
  | none, some (query, columns) => do
    let query ← selectOfRecord fuel query
    let table ← tableOfRecord fuel record.table
    return { table, source := some (.select query columns) }
  | none, none => do
    let table ← tableOfRecord fuel record.table
    return { table, source := none }

def updateOfEntries (fuel : Nat) (entries : Entries Json) : Except Error Update := do
  let record ← orJsonError (UpdateRecord.ofJson? entries)
  let assignments ← record.assignments.mapM fun (name, json) => do
    return (name, ← assignmentOfJson fuel json)
  let table ← tableOfRecord fuel record.table
  let filter ← record.filter.mapM (conditionOfJson fuel)
  return { table, assignments, filter }

def deleteOfEntries (fuel : Nat) (entries : Entries Json) : Except Error Delete := do
  let record ← orJsonError (DeleteRecord.ofJson? entries)
  let table ← tableOfRecord fuel record.table
  let filter ← record.filter.mapM (conditionOfJson fuel)
  return { table, filter }

def createTableOfEntries (fuel : Nat) (entries : Entries Json) : Except Error CreateTable := do
  let (name, record) ← orJsonError (createFields? fuel "tableName" entries)
  return { name, query := ← selectOfRecord fuel record }

def createViewOfEntries (fuel : Nat) (entries : Entries Json) : Except Error CreateView := do
  let (name, record) ← orJsonError (createFields? fuel "viewName" entries)
  let orReplace ← orJsonError (boolField? entries "orReplace")
  return { name, query := ← selectOfRecord fuel record, orReplace }

/-- A statement, by its `type`. -/
def statementOfJson (fuel : Nat) (json : Json) : Except Error Statement :=
  let name := json.typeName?.getD ""
  let entries := json.members?.getD []
  if name = "SelectQuery" then do return .select (← selectOfJson fuel json)
  else if name = "InsertMutation" then do return .insert (← insertOfEntries fuel entries)
  else if name = "UpdateMutation" then do return .update (← updateOfEntries fuel entries)
  else if name = "DeleteMutation" then do return .delete (← deleteOfEntries fuel entries)
  else if name = "CreateTableAsSelect" then do
    return .createTable (← createTableOfEntries fuel entries)
  else if name = "CreateViewAsSelect" then do
    return .createView (← createViewOfEntries fuel entries)
  else .error (.unknownType .statement name)

/-- Enough for any text or JSON of the given size. -/
def decodingFuel (size : Nat) : Nat := 4 * size + 8

end Wire

open Wire

def Expr.decode (text : String) : Except Error Expr := exprOfText (decodingFuel text.length) text

/-- Reads an expression from a slot that may hold any JSON. -/
def Expr.ofJson (json : Json) : Except Error Expr := exprOfJson (decodingFuel json.weight) json

/-- Reads an expression from the slot of a value. -/
def Expr.ofValueSlot (json : Json) : Except Error Expr := valueOfJson (decodingFuel json.weight) json

def Condition.ofJson (json : Json) : Except Error Condition :=
  conditionOfJson (decodingFuel json.weight) json

def Condition.decode (text : String) : Except Error Condition := do
  let json ← parseJson text
  conditionOfJson (decodingFuel text.length) json

/-- Reads a statement of any kind. Every failure is reported as an unreadable statement. -/
def Statement.decode (text : String) : Except Error Statement :=
  let result := do
    let json ← parseJson text
    statementOfJson (decodingFuel text.length) json
  match result with
  | .ok statement => .ok statement
  | .error cause => .error (.unreadable cause)

end PortableQuery
