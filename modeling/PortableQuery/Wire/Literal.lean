import PortableQuery.Json.Basic
import PortableQuery.Literal.Basic
import PortableQuery.Wire.Sentinel

/-!
# Literals as JSON

Dates are written in the form of their sentinel. A string that would be taken for a date or for an
escaped string is escaped with the mark of a value.
-/

namespace PortableQuery

open Text Calendar

namespace Wire

/-- Strings that would not be read back as themselves. -/
def needsEscape (text : String) : Bool := startsWith valueMark text || startsWith dateMark text

/-- What follows the mark of a value, or the whole text if it has none. -/
def dropValueMark (text : String) : String :=
  match text.toList with
  | '!' :: '!' :: '!' :: rest => String.ofList rest
  | _ => text

end Wire

namespace Literal

open Wire

def floatJson : Decimal.Binary64 → Json
  | .finite number => .float number
  | _ => .null

mutual

def toJson : Literal → Json
  | .null => .null
  | .bool value => .bool value
  | .int value => .integer value.toInt
  | .float value => floatJson value
  | .string text => .string (if needsEscape text then valueMark ++ text else text)
  | .date instant => .string (dateText instant.millis)
  | .bytes octets => .array (octets.map fun octet => .integer octet.toNat)
  | .list items => .array (toJsonItems items)
  | .map entries => .object (toJsonEntries entries)

def toJsonItems : List Literal → List Json
  | [] => []
  | item :: more => toJson item :: toJsonItems more

def toJsonEntries : List (String × Literal) → List (String × Json)
  | [] => []
  | (name, value) :: more => (name, toJson value) :: toJsonEntries more

end

/-- A string of JSON as a literal: an escaped string, a date in range, or the text itself. -/
def ofJsonString (text : String) : Literal :=
  if startsWith valueMark text then .string (dropValueMark text)
  else match Sentinel.classify text with
    | some (.date millis) =>
      match Instant.ofMillis? millis.toInt with
      | some instant => .date instant
      | none => .string text
    | _ => .string text

/-- An integer beyond the signed 64-bit words becomes a floating-point number. -/
def ofJsonInteger (n : Int) : Literal :=
  match Numeral.int64? n with
  | some word => .int word
  | none => .float (Decimal.Binary64.ofInt n)

mutual

def ofJson : Json → Literal
  | .null => .null
  | .bool value => .bool value
  | .integer n => ofJsonInteger n
  | .float number => .float (.finite number)
  | .string text => ofJsonString text
  | .array items => .list (ofJsonItems items)
  | .object members => .map (ofJsonMembers members)

def ofJsonItems : List Json → List Literal
  | [] => []
  | item :: more => ofJson item :: ofJsonItems more

def ofJsonMembers : List (String × Json) → List (String × Literal)
  | [] => []
  | (name, value) :: more => (name, ofJson value) :: ofJsonMembers more

end

/-- The payload of a value sentinel. Dates have a sentinel of their own, so a string here is text
even when it looks like a date. -/
def ofPayload : Json → Literal
  | .string text => .string (dropValueMark text)
  | other => ofJson other

end Literal

end PortableQuery
