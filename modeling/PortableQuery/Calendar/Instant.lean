import PortableQuery.Calendar.Civil
import PortableQuery.Text.Numeral

/-!
# Instants

Points in time to the millisecond, counted from the start of 1970 in universal time, and the
texts in which they are written.
-/

namespace PortableQuery.Calendar

open Text

/-- An instant within the years -262143 to 262142. -/
structure Instant where
  millis : Int
  lower : -8334601228800000 ≤ millis
  upper : millis ≤ 8210266876799999
  deriving DecidableEq

def dayMillis : Int := 86400000

/-- The date and the millisecond of the day at a count of milliseconds. -/
structure Moment where
  date : Civil
  ofDay : Nat

namespace Moment

def ofMillis (millis : Int) : Moment :=
  { date := Civil.ofDays (millis / dayMillis), ofDay := (millis % dayMillis).toNat }

/-- Four digits from 0 to 9999; a sign marks the years outside. -/
def yearText (year : Int) : String :=
  if year < 0 then "-" ++ Numeral.padded 4 year.natAbs
  else if 9999 < year then "+" ++ Numeral.padded 5 year.natAbs
  else Numeral.padded 4 year.natAbs

def dateText (moment : Moment) : String :=
  yearText moment.date.year ++ "-" ++ Numeral.padded 2 moment.date.month ++ "-" ++
    Numeral.padded 2 moment.date.day

def timeText (moment : Moment) : String :=
  Numeral.padded 2 (moment.ofDay / 3600000) ++ ":" ++
    Numeral.padded 2 (moment.ofDay / 60000 % 60) ++ ":" ++
    Numeral.padded 2 (moment.ofDay / 1000 % 60)

end Moment

namespace Instant

def ofMillis? (millis : Int) : Option Instant :=
  if range : -8334601228800000 ≤ millis ∧ millis ≤ 8210266876799999 then
    some ⟨millis, range.1, range.2⟩
  else none

/-- `YYYY-MM-DDTHH:MM:SS.mmmZ` -/
def iso (instant : Instant) : String :=
  let moment := Moment.ofMillis instant.millis
  moment.dateText ++ "T" ++ moment.timeText ++ "." ++ Numeral.padded 3 (moment.ofDay % 1000) ++ "Z"

/-- `YYYY-MM-DD HH:MM:SS` at a distance in seconds from universal time. -/
def clockText (instant : Instant) (offset : Int) : String :=
  let moment := Moment.ofMillis (instant.millis + offset * 1000)
  moment.dateText ++ " " ++ moment.timeText

end Instant

end PortableQuery.Calendar
