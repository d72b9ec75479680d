import PortableQuery.Text.Numeral

/-!
# Sentinels

Expressions travel as single strings that tell by a mark what they hold:

* `!!!` and JSON: a literal or a nested select,
* `!D!`, epoch milliseconds and `!!`: a date,
* `!!`, JSON and `!!`: a raw literal,
* `FN(`, a JSON array and `)`: a function call,
* `OP(`, a JSON array and `)`: an operation.

Text without a complete mark is plain.
-/

namespace PortableQuery.Wire

open Text

inductive Sentinel
  | value (payload : String)
  | date (millis : Int64)
  | raw (payload : String)
  | call (payload : String)
  | operation (payload : String)
  deriving DecidableEq

/-- The text before a given ending, if it has that ending. -/
def beforeEnding? (ending text : List Char) : Option (List Char) :=
  if ending.isSuffixOf text then some (text.take (text.length - ending.length)) else none

/-- Milliseconds with an optional minus sign, up to the closing marks and nothing behind them. -/
def dateBody? (text : List Char) : Option Int64 :=
  let (negative, text) := match text with
    | '-' :: rest => (true, rest)
    | rest => (false, rest)
  let (run, rest) := Numeral.spanDigits text
  if run.isEmpty || rest ≠ ['!', '!'] then none
  else
    let n : Int := Numeral.value run
    Numeral.int64? (if negative then -n else n)

namespace Sentinel

def ofChars? : List Char → Option Sentinel
  | '!' :: '!' :: '!' :: rest => some (.value (String.ofList rest))
  | '!' :: 'D' :: '!' :: rest => (dateBody? rest).map .date
  | '!' :: '!' :: rest => (beforeEnding? ['!', '!'] rest).map fun body => .raw (String.ofList body)
  | 'F' :: 'N' :: '(' :: rest => (beforeEnding? [')'] rest).map fun body => .call (String.ofList body)
  | 'O' :: 'P' :: '(' :: rest =>
    (beforeEnding? [')'] rest).map fun body => .operation (String.ofList body)
  | _ => none

/-- The sentinel of a text; plain text has none. -/
def classify (text : String) : Option Sentinel := ofChars? text.toList

end Sentinel

def valueMark : String := "!!!"

def dateMark : String := "!D!"

def rawMark : String := "!!"

def startsWith (mark text : String) : Bool := mark.toList.isPrefixOf text.toList

/-- Text that claims to be a date, well formed or not. -/
def looksLikeDate (text : String) : Bool := startsWith dateMark text

def dateText (millis : Int) : String := dateMark ++ Numeral.ofInt millis ++ rawMark

end PortableQuery.Wire
