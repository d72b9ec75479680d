import PortableQuery.CommandLine.Arguments
import PortableQuery.Config
import PortableQuery.Dynamo.Compile
import PortableQuery.Dynamo.Partiql
import PortableQuery.Query.Lineage
import PortableQuery.Sql.Render
import PortableQuery.Text.Blank
import PortableQuery.Wire.Decode

/-!
# Running commands

What a command answers, given what it can read: the files by path, the standard input, the place of
the user's configuration and the zones by name. Nothing here reads or writes on its own.
-/

namespace PortableQuery.CommandLine

open Text

structure Surroundings where
  read : String → Except FileFault String
  standardInput : Except FileFault String
  /-- The configuration file of the user. -/
  userConfig : Option String
  zones : Calendar.Zone.Table := Calendar.Zone.common

/-- The exit code and what is written to the two outputs. -/
structure Outcome where
  code : UInt8
  output : String
  errors : String

def programName : String := "qir"

def versionText : String := programName ++ " 0.1.0\n"

def failed (message : String) : Outcome := { code := 1, output := "", errors := "Error: " ++ message }

def succeeded (output : String) : Outcome := { code := 0, output, errors := "" }

/-! ## Configuration -/

def localConfig : String := "qir.toml"

/-- The files to look for when no configuration file is named. -/
def searchPaths (surroundings : Surroundings) : List String :=
  localConfig :: surroundings.userConfig.toList

def configOfText (path text : String) : Except Error Config :=
  match Config.ofToml? text with
  | some config => .ok config
  | none => .error (.configuration (.malformedFile path))

/-- Whether a path that was read leads to a file; it may hold something else than text. -/
def isFile : Except FileFault String → Bool
  | .ok _ => true
  | .error fault => fault == .notText

def configOfFile (surroundings : Surroundings) (path : String) : Except Error Config :=
  match surroundings.read path with
  | .ok text => configOfText path text
  | .error fault => .error (.file fault)

/-- The named configuration, which must exist, or the first that is found, or the defaults. -/
def loadConfig (surroundings : Surroundings) : Option String → Except Error Config
  | some path => configOfFile surroundings path
  | none =>
    match (searchPaths surroundings).find? fun path => isFile (surroundings.read path) with
    | some path => configOfFile surroundings path
    | none => .ok .default

/-- A file that cannot be read is reported together with its cause. -/
def configFailure (cause : Error) : Outcome :=
  let detail := match cause with
    | .file fault => cause.message ++ ": " ++ fault.message
    | other => other.message
  failed ("loading configuration: " ++ detail)

/-- The configuration with the options of the command line put over it. -/
def CompileOptions.over (options : CompileOptions) (config : Config) : Config :=
  { dialect := options.dialect.getD config.dialect
    zoneName := options.zoneName.or config.zoneName
    dynamo :=
      { partitionKey := options.partitionKey.or config.dynamo.partitionKey
        sortKey := options.sortKey.or config.dynamo.sortKey
        indexName := options.indexName.or config.dynamo.indexName
        consistentRead := config.dynamo.consistentRead || options.consistentRead
        forceScan := config.dynamo.forceScan || options.forceScan } }

/-! ## Input -/

/-- Where the text of a statement comes from. -/
inductive InputSource
  | standardInput
  | inline (text : String)
  | file (path : String)

def InputSource.isStandardInput : InputSource → Bool
  | .standardInput => true
  | _ => false

/-- Text that begins like an object is the statement itself. -/
def inputSource : Option String → InputSource
  | none => .standardInput
  | some text =>
    if text = "-" then .standardInput
    else if Wire.startsWith "\x7b" (Blank.trimStart text) then .inline text
    else .file text

def inputText (surroundings : Surroundings) (input : Option String) : Except Outcome String :=
  let named (place : String) : Except FileFault String → Except Outcome String
    | .ok text => .ok text
    | .error fault => .error (failed ("reading " ++ place ++ ": " ++ fault.message))
  match inputSource input with
  | .standardInput => named "statement from stdin" surroundings.standardInput
  | .inline text => .ok text
  | .file path => named path (surroundings.read path)

def orFailed {α : Type} : Except Error α → Except Outcome α
  | .ok value => .ok value
  | .error cause => .error (failed cause.message)

def readStatement (surroundings : Surroundings) (input : Option String) :
    Except Outcome Statement := do
  let text ← inputText surroundings input
  orFailed (Statement.decode (Blank.trim text))

/-! ## Commands -/

def compileText (zones : Calendar.Zone.Table) (config : Config) (output : Output)
    (statement : Statement) : Except Error String :=
  match output with
  | .sql => do
    let flavor ← config.flavor zones
    statement.sql flavor
  | .partiql => statement.partiql
  | .dynamodb => do
    let request ← statement.request config.dynamo
    return request.toJson.pretty

def compile (surroundings : Surroundings) (configPath : Option String) (input : Option String)
    (options : CompileOptions) : Except Outcome Outcome := do
  let config ← match loadConfig surroundings configPath with
    | .ok config => .ok config
    | .error cause => .error (configFailure cause)
  let statement ← readStatement surroundings input
  let text ← orFailed
    (compileText surroundings.zones (options.over config) options.output statement)
  return succeeded (text ++ "\n")

def inspectText (statement : Statement) : String :=
  let tables := match statement.tableNames with
    | [] => "  Tables: (none)\n"
    | names => "  Tables:\n" ++ String.join (names.map fun name => "    • " ++ name ++ "\n")
  "Statement\n  Operation: " ++ statement.operation ++ "\n" ++ tables ++ "\nCanonical form:\n  " ++
    statement.encode ++ "\n"

def inspect (surroundings : Surroundings) (input : Option String) : Except Outcome Outcome := do
  let statement ← readStatement surroundings input
  return succeeded (inspectText statement)

/-- A line of the table of dialects, with a first column of twelve characters. -/
def flavorLine (name description : String) : String :=
  name ++ String.ofList (List.replicate (12 - name.length) ' ') ++ " " ++ description ++ "\n"

def flavorsText : String :=
  "SQL flavors\n\n" ++ flavorLine "Name" "Description" ++
    String.ofList (List.replicate 48 '─') ++ "\n" ++
    String.join (Sql.Dialect.all.map fun dialect => flavorLine dialect.name dialect.description)

def runInvocation (surroundings : Surroundings) (invocation : Invocation) : Outcome :=
  let result := match invocation.command with
    | .compile input options => compile surroundings invocation.config input options
    | .inspect input => inspect surroundings input
    | .flavors => .ok (succeeded flavorsText)
  match result with
  | .ok outcome => outcome
  | .error outcome => outcome

def usageText : String :=
  "Usage: qir [OPTIONS] <COMMAND>\n\nCommands:\n" ++
    "  compile  Compile a serialized statement\n" ++
    "  inspect  Show operation type, tables and canonical form\n" ++
    "  flavors  List the SQL flavors\n"

def run (surroundings : Surroundings) (request : Request) : Outcome :=
  match request with
  | .run invocation => runInvocation surroundings invocation
  | .help => succeeded usageText
  | .version => succeeded versionText
  | .misuse => { code := 2, output := "", errors := usageText }

/-- The files that a request may read. -/
def filesOf (userConfig : Option String) : Request → List String
  | .run { config, command := .compile input _ } =>
    (match config with
      | some path => [path]
      | none => localConfig :: userConfig.toList) ++
    (match inputSource input with
      | .file path => [path]
      | _ => [])
  | .run { command := .inspect input, .. } =>
    match inputSource input with
    | .file path => [path]
    | _ => []
  | _ => []

/-- Whether a request reads its statement from the standard input. -/
def readsStandardInput : Request → Bool
  | .run { command := .compile input _, .. } => (inputSource input).isStandardInput
  | .run { command := .inspect input, .. } => (inputSource input).isStandardInput
  | _ => false

end PortableQuery.CommandLine
