import PortableQuery.Sql.Dialect

/-!
# Arguments

The commands and their options. An option takes its value from the same argument, behind an equals
sign or directly behind a short name, or from the next one. Options may stand on either side of the
command's own argument, none may be given twice, and behind a double hyphen everything is an argument.
-/

namespace PortableQuery.CommandLine

inductive Output
  | sql
  | partiql
  | dynamodb
  deriving DecidableEq

def Output.ofName? (name : String) : Option Output :=
  if name = "sql" then some .sql
  else if name = "partiql" then some .partiql
  else if name = "dynamodb" then some .dynamodb
  else none

/-- What the compile command is told. -/
structure CompileOptions where
  output : Output
  dialect : Option Sql.Dialect
  zoneName : Option String
  partitionKey : Option String
  sortKey : Option String
  indexName : Option String
  consistentRead : Bool
  forceScan : Bool

inductive Command
  | compile (input : Option String) (options : CompileOptions)
  | inspect (input : Option String)
  | flavors

structure Invocation where
  config : Option String
  command : Command

/-- What a list of arguments asks for. -/
inductive Request
  | run (invocation : Invocation)
  | help
  | version
  | misuse

/-! ## Options -/

/-- An option by its long name, with its short name and whether it takes a value. -/
structure OptionRule where
  long : String
  short : Option Char
  takesValue : Bool

def sharedRules : List OptionRule :=
  [⟨"config", some 'c', true⟩, ⟨"verbose", some 'v', false⟩, ⟨"help", some 'h', false⟩]

def topRules : List OptionRule := sharedRules ++ [⟨"version", some 'V', false⟩]

def compileRules : List OptionRule :=
  sharedRules ++
    [⟨"target", some 't', true⟩, ⟨"flavor", some 'f', true⟩, ⟨"timezone", none, true⟩,
     ⟨"partition-key", none, true⟩, ⟨"sort-key", none, true⟩, ⟨"index-name", none, true⟩,
     ⟨"consistent-read", none, false⟩, ⟨"force-scan", none, false⟩]

/-- A request for help or the version, which ends the reading. -/
inductive Stop
  | help
  | version
  deriving DecidableEq

def Stop.ofName? (name : String) : Option Stop :=
  if name = "help" then some .help else if name = "version" then some .version else none

/-- One thing that an argument says. -/
inductive Item
  | option (name : String) (value : Option String)
  | operand (text : String)

/-- Whether an argument can be the value of the option in front of it. -/
def isValue (text : String) : Bool :=
  match text.toList with
  | ['-'] => true
  | '-' :: _ => false
  | _ => true

/-- The option of a long argument, with the value behind its equals sign. -/
def longItem? (rules : List OptionRule) (body : List Char) (next : List String) :
    Option (Item × List String) :=
  let (name, rest) := body.span (· ≠ '=')
  match rules.find? fun rule => rule.long.toList == name with
  | none => none
  | some rule =>
    match rest, rule.takesValue with
    | [], false => some (.option rule.long none, next)
    | _ :: _, false => none
    | _ :: value, true => some (.option rule.long (some (String.ofList value)), next)
    | [], true =>
      match next with
      | value :: next => if isValue value then some (.option rule.long (some value), next) else none
      | [] => none

/-- The options of a cluster of short names. The last may take a value; what stands behind a request for
help or the version is not looked at. -/
def shortItems? (rules : List OptionRule) (next : List String) :
    List Char → Option (List Item × List String)
  | [] => some ([], next)
  | c :: rest =>
    match rules.find? fun rule => rule.short == some c with
    | none => none
    | some rule =>
      if rule.takesValue then
        match rest with
        | '=' :: value => some ([.option rule.long (some (String.ofList value))], next)
        | [] =>
          match next with
          | value :: next =>
            if isValue value then some ([.option rule.long (some value)], next) else none
          | [] => none
        | value => some ([.option rule.long (some (String.ofList value))], next)
      else if (Stop.ofName? rule.long).isSome then some ([.option rule.long none], next)
      else
        (shortItems? rules next rest).map fun (items, next) =>
          (.option rule.long none :: items, next)

/-- The items of the first argument, and the arguments behind them. `none` is misuse. -/
def firstItems? (rules : List OptionRule) (text : String) (next : List String) :
    Option (List Item × List String) :=
  match text.toList with
  | ['-'] => some ([.operand text], next)
  | ['-', '-'] => some (next.map .operand, [])
  | '-' :: '-' :: body => (longItem? rules body next).map fun (item, next) => ([item], next)
  | '-' :: body => shortItems? rules next body
  | _ => some ([.operand text], next)

def optionName? : Item → Option String
  | .option name _ => some name
  | .operand _ => none

def Item.stop? : Item → Option Stop
  | .option name _ => Stop.ofName? name
  | .operand _ => none

/-- The items up to the first request for help or the version, and that request. -/
def beforeStop : List Item → List Item × Option Stop
  | [] => ([], none)
  | item :: more =>
    match item.stop? with
    | some stop => ([], some stop)
    | none =>
      let (items, stop) := beforeStop more
      (item :: items, stop)

/-- Reads all arguments of a command, as far as a request for help. `none` is misuse. -/
def scan (rules : List OptionRule) : Nat → List String → Option (List Item × Option Stop)
  | 0, _ => none
  | _ + 1, [] => some ([], none)
  | fuel + 1, text :: next =>
    match firstItems? rules text next with
    | none => none
    | some (items, next) =>
      match beforeStop items with
      | (items, some stop) => some (items, some stop)
      | (items, none) =>
        (scan rules fuel next).map fun (more, stop) => (items ++ more, stop)

def hasRepeats : List String → Bool
  | [] => false
  | name :: more => more.contains name || hasRepeats more

def operands (items : List Item) : List String :=
  items.filterMap fun item => match item with
    | .operand text => some text
    | .option .. => none

def valueOf? (items : List Item) (name : String) : Option String :=
  items.findSome? fun item => match item with
    | .option found value => if found = name then value else none
    | .operand _ => none

def isGiven (items : List Item) (name : String) : Bool :=
  (items.filterMap optionName?).contains name

/-! ## Commands -/

/-- What the options in front of the command lead to. -/
inductive Goal
  | command (name : String) (rest : List String)
  | stop (stop : Stop)

/-- Everything in front of the command. There is no command behind a double hyphen. -/
def front : Nat → List String → Option (List Item × Goal)
  | 0, _ => none
  | _ + 1, [] => none
  | fuel + 1, text :: next =>
    if text = "--" then none
    else match firstItems? topRules text next with
      | none => none
      | some ([.operand name], rest) => some ([], .command name rest)
      | some (items, next) =>
        match beforeStop items with
        | (items, some stop) => some (items, .stop stop)
        | (items, none) => (front fuel next).map fun (more, goal) => (items ++ more, goal)

/-- A value that must be readable if it is given. -/
def readValue {α : Type} (read : String → Option α) : Option String → Option (Option α)
  | none => some none
  | some text => (read text).map some

def dialect? (name : String) : Option Sql.Dialect :=
  match Sql.Dialect.ofName name with
  | .ok dialect => some dialect
  | .error _ => none

def command? (name : String) (items : List Item) : Option Command :=
  let input := (operands items).head?
  if name = "flavors" then if input.isSome then none else some .flavors
  else if 1 < (operands items).length then none
  else if name = "inspect" then some (.inspect input)
  else do
    let output ← readValue Output.ofName? (valueOf? items "target")
    let dialect ← readValue dialect? (valueOf? items "flavor")
    return .compile input
      { output := output.getD .sql, dialect
        zoneName := valueOf? items "timezone"
        partitionKey := valueOf? items "partition-key"
        sortKey := valueOf? items "sort-key"
        indexName := valueOf? items "index-name"
        consistentRead := isGiven items "consistent-read"
        forceScan := isGiven items "force-scan" }

def commandNames : List String := ["compile", "inspect", "flavors", "help"]

def rulesOf? (name : String) : Option (List OptionRule) :=
  if name = "compile" then some compileRules
  else if name = "inspect" || name = "flavors" then some sharedRules
  else none

/-- No option is given twice and the configuration file has a name. -/
def isConsistent (items : List Item) : Bool :=
  !hasRepeats (items.filterMap optionName?) && valueOf? items "config" != some ""

/-- Help is given on the program or on one command. -/
def helpRequest : List String → Request
  | [] => .help
  | [name] => if commandNames.contains name then .help else .misuse
  | _ => .misuse

/-- The names of the configuration file: in the environment, in front of the command and behind it. The
last of them counts. -/
structure ConfigNames where
  environment : Option String
  inFront : Option String
  behind : Option String

namespace ConfigNames

def chosen? (names : ConfigNames) : Option String := names.behind.or (names.inFront.or names.environment)

/-- The environment is asked in front of the command and again behind it, wherever no name is given, and
must not answer with an empty name. -/
def isUsable (names : ConfigNames) : Bool :=
  names.environment != some "" || (names.inFront.isSome && names.behind.isSome)

end ConfigNames

/-- Reads the arguments of a named command; the configuration file may already have a name. -/
def commandRequest (environment inFront : Option String) (name : String) (rest : List String) : Request :=
  match rulesOf? name with
  | none => .misuse
  | some rules =>
    match scan rules (rest.length + 1) rest with
    | none => .misuse
    | some (items, stop) =>
      if !isConsistent items then .misuse
      else match command? name items, stop with
        | none, _ => .misuse
        | some _, some _ => .help
        | some command, none =>
          let names : ConfigNames := { environment, inFront, behind := valueOf? items "config" }
          if names.isUsable then .run { config := names.chosen?, command } else .misuse

/-- Reads the arguments. The configuration file may also be named by an environment variable. -/
def parse (configVariable : Option String) (args : List String) : Request :=
  match front (args.length + 1) args with
  | none => .misuse
  | some (items, goal) =>
    if !isConsistent items then .misuse
    else match goal with
      | .stop .help => .help
      | .stop .version => .version
      | .command name rest =>
        if name = "help" then helpRequest rest
        else commandRequest configVariable (valueOf? items "config") name rest

end PortableQuery.CommandLine
