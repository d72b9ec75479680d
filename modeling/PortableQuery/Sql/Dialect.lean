import PortableQuery.Calendar.Zone
import PortableQuery.Error
import PortableQuery.Query.Operator

/-!
# SQL dialects

The supported dialects, the names they are asked for by, and the quote characters they use. A flavor
is a dialect together with the zone in which dates are shown.
-/

namespace PortableQuery

open Calendar

namespace Sql

inductive Dialect
  | mysql
  | postgres
  | sqlite
  | timestream
  deriving DecidableEq

namespace Dialect

def all : List Dialect := [.mysql, .postgres, .sqlite, .timestream]

def name : Dialect → String
  | .mysql => "mysql"
  | .postgres => "postgres"
  | .sqlite => "sqlite"
  | .timestream => "timestream"

def description : Dialect → String
  | .mysql => "MySQL-style default (alias: default)"
  | .postgres => "PostgreSQL"
  | .sqlite => "SQLite"
  | .timestream => "AWS Timestream SQL"

/-- Names and their alternatives are read without regard to ASCII case. -/
def ofName (text : String) : Except Error Dialect :=
  let name := asciiLower text
  if name = "mysql" || name = "default" then .ok .mysql
  else if name = "postgres" || name = "postgresql" || name = "pg" then .ok .postgres
  else if name = "sqlite" then .ok .sqlite
  else if name = "timestream" || name = "aws-timestream" then .ok .timestream
  else .error (.unknownType .flavor name)

/-- The quote around identifiers. -/
def columnQuote : Dialect → Char
  | .mysql => '\x60'
  | .postgres => '"'
  | .sqlite => '\x60'
  | .timestream => '"'

/-- The quote around string literals. -/
def stringQuote : Dialect → Char
  | .mysql => '"'
  | _ => '\''

/-- The units in which dates can be moved, in lower case. -/
def dateUnits : Dialect → List String
  | .mysql => ["year", "month", "day", "hour", "minute", "second", "week", "quarter"]
  | .postgres => ["year", "month", "day", "hour", "minute", "second", "week"]
  | .sqlite => ["year", "month", "day", "hour", "minute", "second"]
  | .timestream => ["year", "month", "day", "hour", "minute", "second", "week", "quarter"]

end Dialect

/-- A dialect and the zone in which dates are shown, universal time if there is none. -/
structure Flavor where
  dialect : Dialect
  zone : Option Zone

end Sql

end PortableQuery

