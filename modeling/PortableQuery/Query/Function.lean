import PortableQuery.Query.Condition
import PortableQuery.Query.Expr

/-!
# Building function calls

The functions that every dialect can express, and computed fields made of them.
-/

namespace PortableQuery.Function

open Calendar

def count (column : Expr) : Expr := .call "COUNT" [column]

def sum (column : Expr) : Expr := .call "SUM" [column]

def year (column : Expr) : Expr := .call "YEAR" [column]

def month (column : Expr) : Expr := .call "MONTH" [column]

def min (column : Expr) : Expr := .call "MIN" [column]

def max (column : Expr) : Expr := .call "MAX" [column]

def avg (column : Expr) : Expr := .call "AVG" [column]

def abs (column : Expr) : Expr := .call "ABS" [column]

def ifNull (column fallback : Expr) : Expr := .call "IFNULL" [column, fallback]

def concat (parts : List Expr) : Expr := .call "CONCAT" parts

def ifElse (test : Condition) (yes no : Expr) : Expr := .call "IF" [.condition test, yes, no]

def dateAdd (date interval : Expr) (unit : String) : Expr :=
  .call "DATEADD" [date, interval, .column unit]

/-- The distance between two dates in months or days; any other unit counts whole years. -/
def dateDiff (unit : String) (start finish : Expr) : Except Error Expr :=
  if unit = "month" then do
    let start ← start.templateText
    let finish ← finish.templateText
    return .column ("TIMESTAMPDIFF(MONTH, " ++ start ++ ", " ++ finish ++ ")")
  else if unit = "day" then .ok (.call "DATEDIFF" [start, finish])
  else .ok (.operation "-" [year start, year finish])

def substring (text start length : Expr) : Expr := .call "SUBSTRING" [text, start, length]

def null : Expr := .column "NULL"

def add (operands : List Expr) : Expr := .operation "+" operands

def subtract (operands : List Expr) : Expr := .operation "-" operands

def multiply (operands : List Expr) : Expr := .operation "*" operands

def divide (operands : List Expr) : Expr := .operation "/" operands

/-- A date and time written out as SQL text in universal time. -/
def formatDate (instant : Instant) : Expr := .column ("'" ++ instant.clockText 0 ++ "'")

/-- The sum of a column over the rows whose date lies in a range. -/
def dateRangeSum (dateColumn valueColumn : String) (start finish : Literal) : Expr :=
  sum (ifElse (.between (.column dateColumn) (.value start) (.value finish)) (.column valueColumn)
    (.value (.int 0)))

/-- The relative change from last year's figure to this year's, guarded against zero on either
side. -/
def relativeChange (thisYear lastYear : Expr) : Expr :=
  let isZero (figure : Expr) : Condition := .compare figure (.value (.int 0)) .eq
  let ratio := divide [subtract [thisYear, lastYear], lastYear]
  ifElse (.logical [isZero thisYear, isZero lastYear] .and) (.column "+0")
    (ifElse (isZero lastYear) null (ifElse (isZero thisYear) (.column "-1") ratio))

end PortableQuery.Function
