import PortableQuery.Json.Basic
import PortableQuery.Decimal.Reader

/-!
# Reading JSON

A strict reader: blanks are space, tab, carriage return and line feed; nothing may follow the
value; arrays and objects nest at most 127 deep. Reading returns the value and the rest of the
text, and nothing where the text is malformed.
-/

namespace PortableQuery.Json

open Text

def isBlank (c : Char) : Bool := c = ' ' || c = '\t' || c = '\r' || c = '\n'

def skipBlank (text : List Char) : List Char := text.dropWhile isBlank

/-! ## Strings -/

def hexValue? (c : Char) : Option Nat :=
  if c.isDigit then some (c.toNat - 48)
  else if 'a' ≤ c && c ≤ 'f' then some (c.toNat - 87)
  else if 'A' ≤ c && c ≤ 'F' then some (c.toNat - 55)
  else none

def hexUnit? (a b c d : Char) : Option Nat := do
  let a ← hexValue? a
  let b ← hexValue? b
  let c ← hexValue? c
  let d ← hexValue? d
  return ((a * 16 + b) * 16 + c) * 16 + d

def isHighSurrogate (unit : Nat) : Bool := 0xD800 ≤ unit && unit < 0xDC00

def isLowSurrogate (unit : Nat) : Bool := 0xDC00 ≤ unit && unit < 0xE000

/-- The character behind a backslash that takes no digits. -/
def simpleEscape? (c : Char) : Option Char :=
  if c = '"' || c = '\\' || c = '/' then some c
  else if c = 'n' then some '\n'
  else if c = 'r' then some '\r'
  else if c = 't' then some '\t'
  else if c = 'b' then some '\x08'
  else if c = 'f' then some '\x0c'
  else none

/-- The characters up to the closing quote, and what follows it. An escaped surrogate must be the
first half of a pair with an escaped second half behind it. -/
def stringBody : List Char → Option (List Char × List Char)
  | [] => none
  | '"' :: rest => some ([], rest)
  | '\\' :: 'u' :: a :: b :: c :: d :: rest =>
    match hexUnit? a b c d with
    | none => none
    | some unit =>
      if isHighSurrogate unit then
        match rest with
        | '\\' :: 'u' :: e :: f :: g :: h :: rest =>
          match hexUnit? e f g h with
          | none => none
          | some low =>
            if isLowSurrogate low then
              (stringBody rest).map fun (text, rest) =>
                (Char.ofNat (0x10000 + (unit - 0xD800) * 0x400 + (low - 0xDC00)) :: text, rest)
            else none
        | _ => none
      else if isLowSurrogate unit then none
      else (stringBody rest).map fun (text, rest) => (Char.ofNat unit :: text, rest)
  | '\\' :: c :: rest =>
    match simpleEscape? c with
    | none => none
    | some c => (stringBody rest).map fun (text, rest) => (c :: text, rest)
  | c :: rest =>
    if c.toNat < 0x20 || c = '\\' then none
    else (stringBody rest).map fun (text, rest) => (c :: text, rest)

/-! ## Numbers -/

/-- Digits gathered into a significand for as long as it fits 64 bits. -/
structure Gathered where
  significand : Nat
  /-- Digits of the run that were left out. -/
  dropped : Nat

def gatherDigits (significand : Nat) : List Char → Gathered
  | [] => ⟨significand, 0⟩
  | c :: rest =>
    let next := significand * 10 + (c.toNat - 48)
    if next < 2 ^ 64 then gatherDigits next rest else ⟨significand, rest.length + 1⟩

/-- The number of a numeral with a point or an exponent. Digits that no longer fit the significand
count as zeros. -/
def floatOf? (negative : Bool) (whole fraction : List Char) (exponent : Int) :
    Option Decimal.Finite :=
  let before := gatherDigits 0 whole
  let after := gatherDigits before.significand fraction
  let used : Int := fraction.length - after.dropped
  Decimal.scaled negative after.significand (before.dropped - used + exponent)

/-- The number of a numeral without point and exponent: an integer if it fits 64 bits. Minus zero
has no integer. -/
def integerOf? (negative : Bool) (whole : List Char) : Option Json :=
  let n := Numeral.value whole
  if negative then
    if 0 < n ∧ n ≤ 2 ^ 63 then some (.integer (-n))
    else if n < 2 ^ 64 then (Decimal.scaled true n 0).map .float
    else (floatOf? true whole [] 0).map .float
  else if n < 2 ^ 64 then some (.integer n)
  else (floatOf? false whole [] 0).map .float

/-- An exponent's sign and digits, and what follows. -/
def exponentPart? (text : List Char) : Option (Int × List Char) :=
  let (negative, text) := match text with
    | '-' :: rest => (true, rest)
    | '+' :: rest => (false, rest)
    | rest => (false, rest)
  let (run, rest) := Numeral.spanDigits text
  if run.isEmpty then none
  else
    let n : Int := Numeral.value run
    some (if negative then -n else n, rest)

/-- A numeral with its digits and fraction already found. -/
def numberEnd (negative : Bool) (whole fraction : List Char) (text : List Char) :
    Option (Json × List Char) :=
  let withExponent (rest : List Char) : Option (Json × List Char) := do
    let (exponent, rest) ← exponentPart? rest
    let x ← floatOf? negative whole fraction exponent
    return (.float x, rest)
  match text with
  | 'e' :: rest => withExponent rest
  | 'E' :: rest => withExponent rest
  | rest =>
    if fraction.isEmpty then (integerOf? negative whole).map fun n => (n, rest)
    else (floatOf? negative whole fraction 0).map fun x => (.float x, rest)

/-- A number behind its sign: no leading zeros, and digits on both sides of a point. -/
def number (negative : Bool) (text : List Char) : Option (Json × List Char) :=
  let (whole, rest) := Numeral.spanDigits text
  if whole.isEmpty || (whole.head? == some '0' && 1 < whole.length) then none
  else match rest with
    | '.' :: more =>
      let (fraction, rest) := Numeral.spanDigits more
      if fraction.isEmpty then none else numberEnd negative whole fraction rest
    | _ => numberEnd negative whole [] rest

/-! ## Values -/

mutual

/-- Reads one value. `depth` is how many arrays and objects may still open, `fuel` how many values,
items and members may still be read. -/
def value : Nat → Nat → List Char → Option (Json × List Char)
  | 0, _, _ => none
  | fuel + 1, depth, text =>
    match skipBlank text with
    | 'n' :: 'u' :: 'l' :: 'l' :: rest => some (.null, rest)
    | 't' :: 'r' :: 'u' :: 'e' :: rest => some (.bool true, rest)
    | 'f' :: 'a' :: 'l' :: 's' :: 'e' :: rest => some (.bool false, rest)
    | '"' :: rest => (stringBody rest).map fun (text, rest) => (.string (String.ofList text), rest)
    | '[' :: rest =>
      match depth with
      | 0 => none
      | depth + 1 =>
        match skipBlank rest with
        | ']' :: rest => some (.array [], rest)
        | rest => (items fuel depth rest).map fun (found, rest) => (.array found, rest)
    | '{' :: rest =>
      match depth with
      | 0 => none
      | depth + 1 =>
        match skipBlank rest with
        | '}' :: rest => some (.object [], rest)
        | rest =>
          (members fuel depth rest).map fun (found, rest) => (.object (Entries.ofList found), rest)
    | '-' :: rest => number true rest
    | rest => number false rest

/-- One or more items up to the closing bracket. -/
def items : Nat → Nat → List Char → Option (List Json × List Char)
  | 0, _, _ => none
  | fuel + 1, depth, text =>
    match value fuel depth text with
    | none => none
    | some (item, rest) =>
      match skipBlank rest with
      | ',' :: rest => (items fuel depth rest).map fun (found, rest) => (item :: found, rest)
      | ']' :: rest => some ([item], rest)
      | _ => none

/-- One or more members up to the closing brace. -/
def members : Nat → Nat → List Char → Option (List (String × Json) × List Char)
  | 0, _, _ => none
  | fuel + 1, depth, text =>
    match skipBlank text with
    | '"' :: rest =>
      match stringBody rest with
      | none => none
      | some (name, rest) =>
        match skipBlank rest with
        | ':' :: rest =>
          match value fuel depth rest with
          | none => none
          | some (found, rest) =>
            let member := (String.ofList name, found)
            match skipBlank rest with
            | ',' :: rest => (members fuel depth rest).map fun (more, rest) => (member :: more, rest)
            | '}' :: rest => some ([member], rest)
            | _ => none
        | _ => none
    | _ => none

end

/-- How deep arrays and objects may nest. -/
def depthLimit : Nat := 127

def parseChars (text : List Char) : Option Json :=
  match value (2 * text.length + 2) depthLimit text with
  | some (json, rest) => if (skipBlank rest).isEmpty then some json else none
  | none => none

def parse (text : String) : Option Json := parseChars text.toList

end PortableQuery.Json
