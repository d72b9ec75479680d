import PortableQuery.Decimal.Reader
import PortableQuery.Toml.Basic

/-!
# Reading TOML

A reader for documents of version 1.0: a line holds a key with its value, the header of a table or
nothing, and may end in a comment. Malformed text, a key that is set twice, a table that is opened
twice and anything nested too deeply give no document.
-/

namespace PortableQuery.Toml

open Text

/-! ## Blanks, comments and line ends -/

def isSpace (c : Char) : Bool := c = ' ' || c = '\t'

def skipSpace (text : List Char) : List Char := text.dropWhile isSpace

/-- Characters that text may hold; of the control characters only the tab. -/
def isTextChar (c : Char) : Bool := c = '\t' || (0x20 ≤ c.toNat && c.toNat ≠ 0x7F)

/-- The rest behind a comment, if one begins here. -/
def skipComment : List Char → List Char
  | '#' :: rest => rest.dropWhile isTextChar
  | text => text

/-- The rest behind the end of a line; the end of the text ends a line too. -/
def lineEnd? : List Char → Option (List Char)
  | [] => some []
  | '\n' :: rest => some rest
  | '\r' :: '\n' :: rest => some rest
  | _ => none

/-- Skips blanks, comments and ends of lines, as they may stand between the items of an array. -/
def skipLines : Nat → List Char → List Char
  | 0, text => text
  | fuel + 1, text =>
    match skipComment (skipSpace text) with
    | '\n' :: rest => skipLines fuel rest
    | '\r' :: '\n' :: rest => skipLines fuel rest
    | rest => rest

/-! ## Strings -/

def hexValue? (c : Char) : Option Nat :=
  if c.isDigit then some (c.toNat - 48)
  else if 'a' ≤ c && c ≤ 'f' then some (c.toNat - 87)
  else if 'A' ≤ c && c ≤ 'F' then some (c.toNat - 55)
  else none

/-- The character of a number written in hexadecimal digits. -/
def hexChar? (digits : List Char) : Option Char := do
  let values ← digits.mapM hexValue?
  let n := values.foldl (fun soFar value => soFar * 16 + value) 0
  if n < 0xD800 || (0xE000 ≤ n && n < 0x110000) then some (Char.ofNat n) else none

/-- The character that an escape stands for, and the rest. -/
def escape? : List Char → Option (Char × List Char)
  | 'u' :: a :: b :: c :: d :: rest => (hexChar? [a, b, c, d]).map (·, rest)
  | 'U' :: a :: b :: c :: d :: e :: f :: g :: h :: rest =>
    (hexChar? [a, b, c, d, e, f, g, h]).map (·, rest)
  | 'b' :: rest => some ('\x08', rest)
  | 't' :: rest => some ('\t', rest)
  | 'n' :: rest => some ('\n', rest)
  | 'f' :: rest => some ('\x0c', rest)
  | 'r' :: rest => some ('\r', rest)
  | '"' :: rest => some ('"', rest)
  | '\\' :: rest => some ('\\', rest)
  | _ => none

def basicString : Nat → List Char → Option (List Char × List Char)
  | 0, _ => none
  | _ + 1, '"' :: rest => some ([], rest)
  | fuel + 1, '\\' :: rest => do
    let (c, rest) ← escape? rest
    let (text, rest) ← basicString fuel rest
    return (c :: text, rest)
  | fuel + 1, c :: rest =>
    if isTextChar c then (basicString fuel rest).map fun (text, rest) => (c :: text, rest) else none
  | _ + 1, [] => none

def literalString : List Char → Option (List Char × List Char)
  | '\'' :: rest => some ([], rest)
  | c :: rest =>
    if isTextChar c then (literalString rest).map fun (text, rest) => (c :: text, rest) else none
  | [] => none

/-- Skips blanks and line ends. -/
def skipBlankLines : List Char → List Char
  | '\n' :: rest => skipBlankLines rest
  | '\r' :: '\n' :: rest => skipBlankLines rest
  | c :: rest => if isSpace c then skipBlankLines rest else c :: rest
  | [] => []

/-- What a backslash at the end of a line skips: all blanks and line ends up to the next text. -/
def lineContinuation? (text : List Char) : Option (List Char) :=
  match skipSpace text with
  | '\n' :: rest => some (skipBlankLines rest)
  | '\r' :: '\n' :: rest => some (skipBlankLines rest)
  | _ => none

/-- The longest run of quotes that may end a string in triple quotes: two of them belong to it. -/
def longestClosing : Nat := 5

/-- The body of a string in triple quotes; only basic strings have escapes, and every line ends in a
line feed alone. -/
def multilineString (quote : Char) : Nat → List Char → Option (List Char × List Char)
  | 0, _ => none
  | fuel + 1, text =>
    let quotes := text.takeWhile (· = quote)
    if 3 ≤ quotes.length then
      if quotes.length ≤ longestClosing then some (quotes.drop 3, text.drop quotes.length) else none
    else match text with
      | [] => none
      | '\\' :: rest =>
        if quote = '"' then
          match lineContinuation? rest with
          | some rest => multilineString quote fuel rest
          | none => do
            let (c, rest) ← escape? rest
            let (text, rest) ← multilineString quote fuel rest
            return (c :: text, rest)
        else (multilineString quote fuel rest).map fun (text, rest) => ('\\' :: text, rest)
      | '\r' :: '\n' :: rest =>
        (multilineString quote fuel rest).map fun (text, rest) => ('\n' :: text, rest)
      | c :: rest =>
        if isTextChar c || c = '\n' then
          (multilineString quote fuel rest).map fun (text, rest) => (c :: text, rest)
        else none

/-- The body of a string in triple quotes begins behind a line end that follows the quotes. -/
def dropFirstLineEnd : List Char → List Char
  | '\n' :: rest => rest
  | '\r' :: '\n' :: rest => rest
  | text => text

/-- A string of any of the four kinds. -/
def string? (text : List Char) : Option (String × List Char) :=
  let found := match text with
    | '"' :: '"' :: '"' :: rest => multilineString '"' (rest.length + 1) (dropFirstLineEnd rest)
    | '\'' :: '\'' :: '\'' :: rest => multilineString '\'' (rest.length + 1) (dropFirstLineEnd rest)
    | '"' :: rest => basicString (rest.length + 1) rest
    | '\'' :: rest => literalString rest
    | _ => none
  found.map fun (text, rest) => (String.ofList text, rest)

/-! ## Keys -/

def isBareChar (c : Char) : Bool := c.isAlphanum || c = '_' || c = '-'

def simpleKey? (text : List Char) : Option (String × List Char) :=
  match text with
  | '"' :: rest => (basicString (rest.length + 1) rest).map fun (key, rest) => (String.ofList key, rest)
  | '\'' :: rest => (literalString rest).map fun (key, rest) => (String.ofList key, rest)
  | text =>
    let (key, rest) := text.span isBareChar
    if key.isEmpty then none else some (String.ofList key, rest)

/-- How many parts a dotted key may have, and how deep arrays and inline tables may nest. -/
def depthLimit : Nat := 79

/-- At most so many keys, and at least one, with dots between them. -/
def keysUpTo : Nat → List Char → Option (List String × List Char)
  | 0, _ => none
  | limit + 1, text => do
    let (key, rest) ← simpleKey? (skipSpace text)
    match skipSpace rest with
    | '.' :: rest =>
      let (keys, rest) ← keysUpTo limit rest
      return (key :: keys, rest)
    | rest => return ([key], rest)

def dottedKey? (text : List Char) : Option (List String × List Char) := keysUpTo depthLimit text

/-! ## Numbers, dates and times -/

/-- Digits with single underscores between them. -/
def isDigitRun (isDigit : Char → Bool) : List Char → Bool
  | [] => false
  | [c] => isDigit c
  | c :: '_' :: rest => isDigit c && isDigitRun isDigit rest
  | c :: rest => isDigit c && isDigitRun isDigit rest

def unsigned : List Char → List Char
  | '+' :: rest => rest
  | '-' :: rest => rest
  | text => text

def isDecimalInteger (text : List Char) : Bool :=
  let body := unsigned text
  isDigitRun Char.isDigit body && (body.length == 1 || body.head? != some '0')

/-- The value of digits in a base, underscores skipped. -/
def baseValue (base : Nat) (digits : List Char) : Nat :=
  digits.foldl (fun soFar c => match hexValue? c with
    | some value => soFar * base + value
    | none => soFar) 0

def isInteger (text : List Char) : Bool :=
  match text with
  | '0' :: 'x' :: digits =>
    isDigitRun (fun c => (hexValue? c).isSome) digits && decide (baseValue 16 digits < 2 ^ 63)
  | '0' :: 'o' :: digits =>
    isDigitRun (fun c => '0' ≤ c && c ≤ '7') digits && decide (baseValue 8 digits < 2 ^ 63)
  | '0' :: 'b' :: digits =>
    isDigitRun (fun c => c = '0' || c = '1') digits && decide (baseValue 2 digits < 2 ^ 63)
  | text =>
    isDecimalInteger text &&
      (let n := baseValue 10 (unsigned text)
       if text.head? == some '-' then decide (n ≤ 2 ^ 63) else decide (n < 2 ^ 63))

def isExponent : List Char → Bool
  | c :: rest => (c = 'e' || c = 'E') && isDigitRun Char.isDigit (unsigned rest)
  | [] => false

/-- A number that is too large is refused, but not one that is too small. -/
def isInRange (text : List Char) : Bool :=
  Decimal.readBinary64? (String.ofList (text.filter (· ≠ '_'))) != some (.infinity false)

def isFloat (text : List Char) : Bool :=
  let body := unsigned text
  if body = ['i', 'n', 'f'] || body = ['n', 'a', 'n'] then true
  else
    let isPart (c : Char) : Bool := c.isDigit || c = '_'
    let (whole, rest) := body.span isPart
    isDecimalInteger whole && isInRange text && match rest with
      | '.' :: more =>
        let (fraction, rest) := more.span isPart
        isDigitRun Char.isDigit fraction && (rest.isEmpty || isExponent rest)
      | rest => isExponent rest

/-- A number of exactly two digits. -/
def twoDigits? (a b : Char) : Option Nat :=
  if a.isDigit && b.isDigit then some (Numeral.value [a, b]) else none

def daysOfMonth (year month : Nat) : Nat :=
  if month = 2 then
    if year % 4 = 0 && (year % 100 ≠ 0 || year % 400 = 0) then 29 else 28
  else if month = 4 || month = 6 || month = 9 || month = 11 then 30
  else 31

/-- The rest behind a date. -/
def date? : List Char → Option (List Char)
  | y1 :: y2 :: y3 :: y4 :: '-' :: m1 :: m2 :: '-' :: d1 :: d2 :: rest => do
    let century ← twoDigits? y1 y2
    let years ← twoDigits? y3 y4
    let month ← twoDigits? m1 m2
    let day ← twoDigits? d1 d2
    if 1 ≤ month && month ≤ 12 && 1 ≤ day && day ≤ daysOfMonth (century * 100 + years) month then
      some rest
    else none
  | _ => none

/-- The rest behind a time of day. -/
def time? : List Char → Option (List Char)
  | h1 :: h2 :: ':' :: m1 :: m2 :: ':' :: s1 :: s2 :: rest => do
    let hour ← twoDigits? h1 h2
    let minute ← twoDigits? m1 m2
    let second ← twoDigits? s1 s2
    if hour ≤ 23 && minute ≤ 59 && second ≤ 60 then
      match rest with
      | '.' :: more =>
        let (fraction, rest) := Numeral.spanDigits more
        if fraction.isEmpty then none else some rest
      | rest => some rest
    else none
  | _ => none

/-- A zone behind a time, or nothing. -/
def isOffset : List Char → Bool
  | [] => true
  | ['Z'] => true
  | ['z'] => true
  | [sign, h1, h2, ':', m1, m2] =>
    (sign = '+' || sign = '-') && match twoDigits? h1 h2, twoDigits? m1 m2 with
      | some hour, some minute => decide (hour ≤ 23) && decide (minute ≤ 59)
      | _, _ => false
  | _ => false

def isDateTime (text : List Char) : Bool :=
  match date? text with
  | some [] => true
  | some (mark :: rest) =>
    (mark = 'T' || mark = 't' || mark = ' ') && match time? rest with
      | some rest => isOffset rest
      | none => false
  | none => time? text == some []

def isScalarChar (c : Char) : Bool := c.isAlphanum || c = '+' || c = '-' || c = '_' || c = '.' || c = ':'

/-- A word of a value. A date and a time may have a blank between them. -/
def scalarWord (text : List Char) : List Char × List Char :=
  let (word, rest) := text.span isScalarChar
  match rest with
  | ' ' :: more =>
    let (time, behind) := more.span isScalarChar
    if date? word == some [] && (match time with
        | c :: _ => c.isDigit
        | [] => false) then (word ++ ' ' :: time, behind)
    else (word, rest)
  | rest => (word, rest)

def scalar? (text : List Char) : Option (Node × List Char) :=
  let (word, rest) := scalarWord text
  if word = ['t', 'r', 'u', 'e'] then some (.bool true, rest)
  else if word = ['f', 'a', 'l', 's', 'e'] then some (.bool false, rest)
  else if isInteger word || isFloat word then some (.number, rest)
  else if isDateTime word then some (.moment, rest)
  else none

/-! ## Values -/

def splitLastKey : List String → Option (List String × String)
  | [] => none
  | [key] => some ([], key)
  | key :: more => (splitLastKey more).map fun (path, last) => (key :: path, last)

mutual

/-- A value; `depth` is how much deeper arrays and inline tables may nest. -/
def value? : Nat → Nat → List Char → Option (Node × List Char)
  | 0, _, _ => none
  | fuel + 1, depth, text =>
    match text, depth with
    | '"' :: _, _ => (string? text).map fun (text, rest) => (.string text, rest)
    | '\'' :: _, _ => (string? text).map fun (text, rest) => (.string text, rest)
    | '[' :: rest, depth + 1 => (items? fuel depth rest).map fun (items, rest) => (.array items, rest)
    | '{' :: rest, depth + 1 =>
      match skipSpace rest with
      | '}' :: rest => some (.inline [], rest)
      | rest =>
        (pairs? fuel depth { dotted := false, entries := [] } rest).map fun (table, rest) =>
          (.inline table.entries, rest)
    | text, _ => scalar? text

/-- Items up to the closing bracket; a comma may follow the last one. -/
def items? : Nat → Nat → List Char → Option (List Node × List Char)
  | 0, _, _ => none
  | fuel + 1, depth, text =>
    match skipLines (text.length + 1) text with
    | ']' :: rest => some ([], rest)
    | text => do
      let (item, rest) ← value? fuel depth text
      match skipLines (rest.length + 1) rest with
      | ',' :: rest =>
        let (items, rest) ← items? fuel depth rest
        return (item :: items, rest)
      | ']' :: rest => return ([item], rest)
      | _ => none

/-- Keys and values up to the closing brace, on one line. -/
def pairs? : Nat → Nat → Table → List Char → Option (Table × List Char)
  | 0, _, _, _ => none
  | fuel + 1, depth, table, text => do
    let (keys, rest) ← dottedKey? text
    let (path, key) ← splitLastKey keys
    match rest with
    | '=' :: rest =>
      let (value, rest) ← value? fuel depth (skipSpace rest)
      let table ← assign path key value table
      match skipSpace rest with
      | ',' :: rest => pairs? fuel depth table rest
      | '}' :: rest => return (table, rest)
      | _ => none
    | _ => none

end

/-! ## Documents -/

/-- A document while it is read: all tables, and the path of the one whose keys follow. -/
structure Document where
  root : Table
  current : List String

/-- Changes the table that is in use. -/
def changeCurrent (change : Table → Option Table) (document : Document) : Option Document :=
  (descend false change document.current document.root).map fun root => { document with root }

/-- Reads a header behind its opening brackets. -/
def header? (isArray : Bool) (document : Document) (text : List Char) :
    Option (Document × List Char) := do
  let (keys, rest) ← dottedKey? text
  let (path, key) ← splitLastKey keys
  match isArray, rest with
  | false, ']' :: rest =>
    return ({ root := ← openTable path key document.root, current := keys }, rest)
  | true, ']' :: ']' :: rest =>
    return ({ root := ← openArrayTable path key document.root, current := keys }, rest)
  | _, _ => none

def pair? (document : Document) (text : List Char) : Option (Document × List Char) := do
  let (keys, rest) ← dottedKey? text
  let (path, key) ← splitLastKey keys
  match rest with
  | '=' :: rest =>
    let (value, rest) ← value? (2 * rest.length + 2) depthLimit (skipSpace rest)
    return (← changeCurrent (assign path key value) document, rest)
  | _ => none

/-- What a line holds in front of its comment. -/
def line? (document : Document) (text : List Char) : Option (Document × List Char) :=
  match skipSpace text with
  | [] => some (document, [])
  | '\n' :: rest => some (document, '\n' :: rest)
  | '\r' :: rest => some (document, '\r' :: rest)
  | '#' :: rest => some (document, '#' :: rest)
  | '[' :: '[' :: rest => header? true document rest
  | '[' :: rest => header? false document rest
  | rest => pair? document rest

def lines? : Nat → Document → List Char → Option Document
  | 0, _, _ => none
  | _ + 1, document, [] => some document
  | fuel + 1, document, text => do
    let (document, rest) ← line? document text
    let rest ← lineEnd? (skipComment (skipSpace rest))
    lines? fuel document rest

/-- The entries of a document; a byte order mark in front is skipped. -/
def parse (text : String) : Option (Entries Node) :=
  let chars := match text.toList with
    | c :: rest => if c.toNat = 0xFEFF then rest else c :: rest
    | [] => []
  (lines? (chars.length + 1) { root := { dotted := false, entries := [] }, current := [] } chars).map
    fun document => document.root.entries

end PortableQuery.Toml
