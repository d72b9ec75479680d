import PortableQuery.Config.Zones
import PortableQuery.Dynamo.Request
import PortableQuery.Sql.Dialect
import PortableQuery.Toml.Reader

/-!
# Configuration

The settings of a TOML file: the dialect and the time zone of SQL, the keys and read settings of the
key-value store. Every setting has a default and unknown ones are ignored. A section may also be an
array of its settings in their order.
-/

namespace PortableQuery

open Calendar

structure Config where
  dialect : Sql.Dialect
  zoneName : Option String
  dynamo : Dynamo.Options
  deriving DecidableEq

namespace Config

def default : Config := { dialect := .mysql, zoneName := none, dynamo := .default }

/-- The settings of a section by name. A missing section has none; a date or time counts as a section
without settings. -/
def section? (names : List String) : Option Toml.Node → Option (Entries Toml.Node)
  | none => some []
  | some (.table _ _ entries) => some entries
  | some (.inline entries) => some entries
  | some (.array items) => some (names.zip items)
  | some .moment => some []
  | some _ => none

def text? (entries : Entries Toml.Node) (name : String) : Option (Option String) :=
  match entries.get? name with
  | none => some none
  | some (.string text) => some (some text)
  | some _ => none

def flag? (entries : Entries Toml.Node) (name : String) : Option Bool :=
  match entries.get? name with
  | none => some false
  | some (.bool value) => some value
  | some _ => none

def dialect? (entries : Entries Toml.Node) : Option Sql.Dialect :=
  match entries.get? "flavor" with
  | none => some .mysql
  | some (.string name) =>
    match Sql.Dialect.ofName name with
    | .ok dialect => some dialect
    | .error _ => none
  | some _ => none

def ofEntries? (root : Entries Toml.Node) : Option Config := do
  let sql ← section? ["flavor", "timezone"] (root.get? "sql")
  let dialect ← dialect? sql
  let zoneName ← text? sql "timezone"
  let dynamo ← section?
    ["partition_key", "sort_key", "index_name", "consistent_read", "force_scan"]
    (root.get? "dynamodb")
  let partitionKey ← text? dynamo "partition_key"
  let sortKey ← text? dynamo "sort_key"
  let indexName ← text? dynamo "index_name"
  let consistentRead ← flag? dynamo "consistent_read"
  let forceScan ← flag? dynamo "force_scan"
  return { dialect, zoneName,
           dynamo := { partitionKey, sortKey, indexName, consistentRead, forceScan } }

def ofToml? (text : String) : Option Config := (Toml.parse text).bind ofEntries?

def ofToml (text : String) : Except Error Config :=
  match ofToml? text with
  | some config => .ok config
  | none => .error (.configuration .malformed)

/-- The zone that dates are shown in; its name is looked up only now. -/
def zone (config : Config) (zones : Zone.Table := Zone.common) : Except Error (Option Zone) :=
  match config.zoneName with
  | none => .ok none
  | some name => (Zone.ofName name zones).map some

/-- The flavor of SQL. -/
def flavor (config : Config) (zones : Zone.Table := Zone.common) : Except Error Sql.Flavor := do
  return { dialect := config.dialect, zone := ← config.zone zones }

end Config

end PortableQuery
