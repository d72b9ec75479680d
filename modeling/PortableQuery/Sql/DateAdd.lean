import PortableQuery.Sql.Dialect
import PortableQuery.Text.Case
import PortableQuery.Wire.Encode

/-!
# Moving dates

`DATEADD(date, interval, unit)` is spelled differently by every dialect. Its interval and unit become
part of the spelling, so they are reduced to an integer and to one of the dialect's units first.
-/

namespace PortableQuery.Sql

open Text

structure DateAdd where
  interval : Int64
  unit : String
  deriving DecidableEq

def isIntervalBlank (c : Char) : Bool := c = ' ' || c = '\t' || c = '\r' || c = '\n'

/-- The signed 64-bit integer that a text begins with, behind blanks. -/
def leadingInteger? (text : String) : Option Int64 :=
  let (negative, rest) := match text.toList.dropWhile isIntervalBlank with
    | '-' :: rest => (true, rest)
    | '+' :: rest => (false, rest)
    | rest => (false, rest)
  let run := (Numeral.spanDigits rest).1
  if run.isEmpty then none
  else
    let n : Int := Numeral.value run
    Numeral.int64? (if negative then -n else n)

/-- The text of an argument: that of a literal or column, or the encoding of any other expression. -/
def argumentText (arg : Expr) : String := arg.literalText?.getD arg.encode

namespace DateAdd

def parse (units : List String) (args : List Expr) : Except Error DateAdd :=
  match args with
  | [_, interval, unit] =>
    let intervalText := argumentText interval
    match leadingInteger? intervalText with
    | none => .error (.invalid (.dateAddInterval intervalText))
    | some interval =>
      let unit := Case.lower (argumentText unit)
      if units.contains unit then .ok { interval, unit }
      else .error (.invalid (.dateAddUnit unit))
  | args => .error (.invalid (.dateAddCount args.length))

/-- The dialect's spelling, around the rendered date. -/
def text (dialect : Dialect) (date : String) (parts : DateAdd) : String :=
  let interval := Literal.intText parts.interval
  match dialect with
  | .mysql => "DATE_ADD(" ++ date ++ ", INTERVAL " ++ interval ++ " " ++ asciiUpper parts.unit ++ ")"
  | .postgres => "(" ++ date ++ " + INTERVAL '" ++ interval ++ " " ++ parts.unit ++ "')"
  | .sqlite =>
    let sign := if parts.interval < 0 then "" else "+"
    "DateTime(" ++ date ++ ", '" ++ sign ++ interval ++ " " ++ parts.unit ++ "')"
  | .timestream => "date_add('" ++ parts.unit ++ "', " ++ interval ++ ", " ++ date ++ ")"

end DateAdd

end PortableQuery.Sql
