import PortableQuery.Calendar.Instant
import PortableQuery.Decimal.Layout
import PortableQuery.Entries

/-!
# Literals

The values that statements carry: in expressions, in the rows of an insert and in the items of a
key-value store.
-/

namespace PortableQuery

open Text Calendar

inductive Literal
  | null
  | bool (value : Bool)
  | int (value : Int64)
  | float (value : Decimal.Binary64)
  | string (value : String)
  | date (value : Instant)
  | bytes (value : List UInt8)
  | list (items : List Literal)
  | map (entries : List (String × Literal))

namespace Literal

def isNull : Literal → Bool
  | .null => true
  | _ => false

def string? : Literal → Option String
  | .string text => some text
  | _ => none

def boolText (value : Bool) : String := if value then "true" else "false"

def intText (value : Int64) : String := Numeral.ofInt value.toInt

mutual

/-- The text of a literal as it reads when it is put verbatim into other text. -/
def plain : Literal → String
  | .null => "null"
  | .bool value => boolText value
  | .int value => intText value
  | .float value => value.plain
  | .string text => text
  | .date instant => instant.iso
  | .bytes octets => String.intercalate "," (octets.map fun byte => Numeral.ofNat byte.toNat)
  | .list items => String.intercalate "," (plainItems items)
  | .map _ => "[object Object]"

def plainItems : List Literal → List String
  | [] => []
  | item :: more => plain item :: plainItems more

end

mutual

/-- Equality of literals, with floating-point numbers compared as numbers and the entries of maps
compared without regard to their order. -/
def same : Literal → Literal → Bool
  | .null, .null => true
  | .bool a, .bool b => a == b
  | .int a, .int b => a == b
  | .float a, .float b => a.same b
  | .string a, .string b => a == b
  | .date a, .date b => a.millis == b.millis
  | .bytes a, .bytes b => a == b
  | .list a, .list b => sameItems a b
  | .map a, .map b => a.length == b.length && sameEntries a b
  | _, _ => false

def sameItems : List Literal → List Literal → Bool
  | [], [] => true
  | a :: as, b :: bs => same a b && sameItems as bs
  | _, _ => false

/-- Every entry of the first map has an equal one under its name in the second. -/
def sameEntries : List (String × Literal) → List (String × Literal) → Bool
  | [], _ => true
  | (name, value) :: rest, other =>
    (match Entries.get? other name with
      | some found => same value found
      | none => false) && sameEntries rest other

end

end Literal

end PortableQuery
