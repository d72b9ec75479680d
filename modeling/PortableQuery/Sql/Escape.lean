import PortableQuery.Literal.Basic
import PortableQuery.Sql.Dialect
import PortableQuery.Text.Segments

/-!
# Escaping

Identifiers are quoted segment by segment and string literals as a whole; a quote inside is written
twice. The word `NULL` is never quoted as an identifier.
-/

namespace PortableQuery.Sql

open Text Calendar

/-- Letters, digits, underscores and dots of ASCII, and at least one of them. -/
def isPlainIdentifier (name : String) : Bool :=
  !name.toList.isEmpty && name.toList.all fun c => c.isAlphanum || c = '_' || c = '.'

def isSignedInteger (name : String) : Bool :=
  let digits := match name.toList with
    | '+' :: rest => rest
    | '-' :: rest => rest
    | rest => rest
  !digits.isEmpty && digits.all Char.isDigit

namespace Dialect

/-- Text that passes for an expression written out in full: quoted text, anything with parentheses,
blanks or commas, signed integers, the star and the truth values. -/
def isInlineFragment (dialect : Dialect) (name : String) : Bool :=
  name.toList.any (fun c => c = dialect.columnQuote || c = dialect.stringQuote ||
    c = '(' || c = ')' || c = ' ' || c = ',') ||
  isSignedInteger name || name = "*" || name = "TRUE" || name = "FALSE"

def identifier (dialect : Dialect) (name : String) : String :=
  if name = "NULL" then name else Segments.quote dialect.columnQuote name

/-- An identifier, unless the text passes for an expression written out in full. -/
def lenientIdentifier (dialect : Dialect) (name : String) : String :=
  if name = "NULL" then name
  else if !isPlainIdentifier name && dialect.isInlineFragment name then name
  else Segments.quote dialect.columnQuote name

/-- A table's name. A name with a hyphen is put between quotes as it is. -/
def wholeTable (dialect : Dialect) (name : String) : String :=
  if name.toList.contains '-' then
    String.ofList (dialect.columnQuote :: (name.toList ++ [dialect.columnQuote]))
  else dialect.identifier name

/-- What stands behind the first at-sign, or the whole text without one. -/
def behindAtSign (name : String) : String :=
  match name.toList.dropWhile (· ≠ '@') with
  | _ :: rest => String.ofList rest
  | [] => name

/-- A table's name; where tables are addressed as `schema@table`, the part behind the at-sign. -/
def table (dialect : Dialect) (name : String) : String :=
  match dialect with
  | .sqlite => wholeTable .sqlite (behindAtSign name)
  | other => other.wholeTable name

def string (dialect : Dialect) (text : String) : String := Quoted.encode dialect.stringQuote text

def limitText (limit : Option UInt64) : String :=
  match limit with
  | some n => " LIMIT " ++ Numeral.ofNat n.toNat
  | none => ""

def offsetText (offset : Option UInt64) : String :=
  match offset with
  | some n => " OFFSET " ++ Numeral.ofNat n.toNat
  | none => ""

def limitOffset (dialect : Dialect) (limit offset : Option UInt64) : String :=
  match dialect with
  | .timestream => offsetText offset ++ limitText limit
  | _ => limitText limit ++ offsetText offset

end Dialect

/-- Operands with the operator between them, in parentheses. -/
def operationText (operator : String) (operands : List String) : String :=
  "(" ++ String.intercalate (" " ++ operator ++ " ") operands ++ ")"

def unionText (kind : UnionKind) (left right : String) : String :=
  "(" ++ left ++ ") " ++ kind.word ++ " (" ++ right ++ ")"

namespace Flavor

def date (flavor : Flavor) (instant : Instant) : String :=
  let text := instant.format flavor.zone
  match flavor.dialect with
  | .timestream => "TIMESTAMP '" ++ text ++ "'"
  | dialect => dialect.string text

def value (flavor : Flavor) : Literal → String
  | .null => "NULL"
  | .date instant => flavor.date instant
  | .string text => flavor.dialect.string text
  | other => other.plain

/-- Raw literals are not escaped. -/
def rawValue (_ : Flavor) (literal : Literal) : String := literal.plain

end Flavor

end PortableQuery.Sql
