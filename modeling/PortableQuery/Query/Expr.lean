import PortableQuery.Error
import PortableQuery.Query.Basic
import PortableQuery.Wire.Encode

/-!
# Building expressions

Plain scalars stand for columns with their text. Function calls are kept out of value positions: a
literal in such a position must not turn into a computation unnoticed.
-/

namespace PortableQuery

namespace Expr

def ofInt (value : Int64) : Expr := .column (Literal.intText value)

def ofFloat (value : Decimal.Binary64) : Expr := .column value.plain

def ofBool (value : Bool) : Expr := .column (Literal.boolText value)

/-- The text with which a column template marks an identifier. -/
def identifierMarker (name : String) : String := "#" ++ name ++ "#"

/-- The text with which a column template marks a string literal. -/
def stringMarker (text : String) : String := "&" ++ text ++ "&"

/-- A string literal in a column template. -/
def stringColumn (text : String) : Expr := .column (stringMarker text)

/-- The word for null, rendered verbatim. -/
def rawNull : Expr := .raw (.string "NULL")

/-- An expression for a value position; a function call is refused. -/
def asValue : Expr → Except Error Expr
  | .call .. => .error (.invalid .functionAsValue)
  | other => .ok other

/-- The expression as part of a column template. -/
def templateText : Expr → Except Error String
  | .column name => .ok (identifierMarker name)
  | .value literal => .ok literal.plain
  | .raw literal => .ok literal.plain
  | .call .. => .error (.invalid .functionAsValue)
  | other => .error (.invalid (.templateValue other.encode))

/-- The name by which a key-value store refers to the expression. -/
def columnName : Expr → String
  | .column name => name
  | other => other.encode

end Expr

end PortableQuery
