import PortableQuery.Json.Basic
import PortableQuery.Literal.Basic

/-!
# Attributes

The typed values that a key-value store holds. Numbers travel as text, dates as ISO text, and a list
of only strings or only numbers becomes a set.
-/

namespace PortableQuery.Dynamo

inductive Attribute
  | string (text : String)
  | number (text : String)
  | binary (octets : List UInt8)
  | stringSet (texts : List String)
  | numberSet (texts : List String)
  | list (items : List Attribute)
  | map (entries : List (String × Attribute))
  | null
  | bool (value : Bool)

/-! ## Base64 -/

def base64Char (n : Nat) : Char :=
  if n < 26 then Char.ofNat (65 + n)
  else if n < 52 then Char.ofNat (71 + n)
  else if n < 62 then Char.ofNat (n - 4)
  else if n = 62 then '+'
  else '/'

/-- Four characters for every three octets, padded at the end. -/
def base64Chars : List UInt8 → List Char
  | a :: b :: c :: rest =>
    let n := a.toNat * 65536 + b.toNat * 256 + c.toNat
    base64Char (n / 262144) :: base64Char (n / 4096 % 64) :: base64Char (n / 64 % 64) ::
      base64Char (n % 64) :: base64Chars rest
  | [a, b] =>
    let n := a.toNat * 65536 + b.toNat * 256
    [base64Char (n / 262144), base64Char (n / 4096 % 64), base64Char (n / 64 % 64), '=']
  | [a] =>
    let n := a.toNat * 65536
    [base64Char (n / 262144), base64Char (n / 4096 % 64), '=', '=']
  | [] => []

def base64 (octets : List UInt8) : String := String.ofList (base64Chars octets)

namespace Attribute

/-- The text of a number. -/
def numberText? : Literal → Option String
  | .int value => some (Literal.intText value)
  | .float value => some value.plain
  | _ => none

mutual

def ofLiteral : Literal → Attribute
  | .null => .null
  | .bool value => .bool value
  | .int value => .number (Literal.intText value)
  | .float value => .number value.plain
  | .string text => .string text
  | .date instant => .string instant.iso
  | .bytes octets => .binary octets
  | .list [] => .list []
  | .list items =>
    match items.mapM Literal.string? with
    | some texts => .stringSet texts
    | none =>
      match items.mapM numberText? with
      | some texts => .numberSet texts
      | none => .list (ofItems items)
  | .map entries => .map (ofEntries entries)

def ofItems : List Literal → List Attribute
  | [] => []
  | item :: more => ofLiteral item :: ofItems more

def ofEntries : List (String × Literal) → List (String × Attribute)
  | [] => []
  | (name, value) :: more => (name, ofLiteral value) :: ofEntries more

end

mutual

/-- The value under the name of its type. -/
def toJson : Attribute → Json
  | .string text => .object [("S", .string text)]
  | .number text => .object [("N", .string text)]
  | .binary octets => .object [("B", .string (base64 octets))]
  | .stringSet texts => .object [("SS", .array (texts.map .string))]
  | .numberSet texts => .object [("NS", .array (texts.map .string))]
  | .list items => .object [("L", .array (toJsonItems items))]
  | .map entries => .object [("M", .object (toJsonEntries entries))]
  | .null => .object [("NULL", .bool true)]
  | .bool value => .object [("BOOL", .bool value)]

def toJsonItems : List Attribute → List Json
  | [] => []
  | item :: more => toJson item :: toJsonItems more

def toJsonEntries : List (String × Attribute) → List (String × Json)
  | [] => []
  | (name, value) :: more => (name, toJson value) :: toJsonEntries more

end

mutual

/-- Equality of attributes, the order of entries included. -/
def same : Attribute → Attribute → Bool
  | .string a, .string b => a == b
  | .number a, .number b => a == b
  | .binary a, .binary b => a == b
  | .stringSet a, .stringSet b => a == b
  | .numberSet a, .numberSet b => a == b
  | .list a, .list b => sameItems a b
  | .map a, .map b => sameEntries a b
  | .null, .null => true
  | .bool a, .bool b => a == b
  | _, _ => false

def sameItems : List Attribute → List Attribute → Bool
  | [], [] => true
  | a :: as, b :: bs => same a b && sameItems as bs
  | _, _ => false

def sameEntries : List (String × Attribute) → List (String × Attribute) → Bool
  | [], [] => true
  | (name, a) :: as, (name', b) :: bs => name == name' && same a b && sameEntries as bs
  | _, _ => false

end

end Attribute

end PortableQuery.Dynamo
