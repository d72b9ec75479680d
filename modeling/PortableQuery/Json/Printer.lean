import PortableQuery.Json.Basic
import PortableQuery.Decimal.Layout

/-!
# JSON text

The compact text of a value has no blanks. In strings only the quote, the backslash and the
characters below U+0020 are escaped. The indented text puts every member and item on its own line.
-/

namespace PortableQuery.Json

open Text

def hexDigit (n : Nat) : Char := if n < 10 then Char.ofNat (48 + n) else Char.ofNat (87 + n)

def escapeChar (c : Char) : List Char :=
  if c = '"' then ['\\', '"']
  else if c = '\\' then ['\\', '\\']
  else if c = '\n' then ['\\', 'n']
  else if c = '\r' then ['\\', 'r']
  else if c = '\t' then ['\\', 't']
  else if c = '\x08' then ['\\', 'b']
  else if c = '\x0c' then ['\\', 'f']
  else if c.toNat < 0x20 then ['\\', 'u', '0', '0', hexDigit (c.toNat / 16), hexDigit (c.toNat % 16)]
  else [c]

def stringChars (text : String) : List Char := '"' :: (text.toList.flatMap escapeChar ++ ['"'])

mutual

def chars : Json → List Char
  | .null => "null".toList
  | .bool true => "true".toList
  | .bool false => "false".toList
  | .integer n => Numeral.intChars n
  | .float x => Decimal.jsonChars x
  | .string text => stringChars text
  | .array items => '[' :: (itemChars items ++ [']'])
  | .object members => '{' :: (memberChars members ++ ['}'])

def itemChars : List Json → List Char
  | [] => []
  | [item] => chars item
  | item :: more => chars item ++ ',' :: itemChars more

def memberChars : List (String × Json) → List Char
  | [] => []
  | [(name, value)] => stringChars name ++ ':' :: chars value
  | (name, value) :: more => stringChars name ++ ':' :: (chars value ++ ',' :: memberChars more)

end

def compact (json : Json) : String := String.ofList (chars json)

def newline (level : Nat) : String := "\n" ++ String.ofList (List.replicate (2 * level) ' ')

mutual

/-- The text indented by two blanks a level; empty arrays and objects stay on one line. -/
def indented (level : Nat) : Json → String
  | .array [] => "[]"
  | .array items => "[" ++ String.intercalate "," (indentedItems (level + 1) items) ++ newline level ++ "]"
  | .object [] => "\x7b\x7d"
  | .object members =>
    "\x7b" ++ String.intercalate "," (indentedMembers (level + 1) members) ++ newline level ++ "\x7d"
  | other => other.compact

def indentedItems (level : Nat) : List Json → List String
  | [] => []
  | item :: more => (newline level ++ indented level item) :: indentedItems level more

def indentedMembers (level : Nat) : List (String × Json) → List String
  | [] => []
  | (name, value) :: more =>
    (newline level ++ String.ofList (stringChars name) ++ ": " ++ indented level value) ::
      indentedMembers level more

end

def pretty (json : Json) : String := indented 0 json

end PortableQuery.Json
