/-!
# Civil dates

The proleptic Gregorian calendar: day numbers counted from 1 January 1970 and the dates they
stand for. Years run from March inside this module, so that the leap day ends a year and the month
lengths follow one linear rule.
-/

namespace PortableQuery.Calendar

structure Civil where
  year : Int
  month : Nat
  day : Nat
  deriving DecidableEq

namespace Civil

/-- Days in four hundred years. -/
abbrev eraDays : Int := 146097

/-- Days from 1 March of year zero to 1 January 1970. -/
abbrev epochShift : Int := 719468

/-- The year within its era, from the day within the era. -/
def yearOfEra (dayOfEra : Int) : Int :=
  (dayOfEra - dayOfEra / 1460 + dayOfEra / 36524 - dayOfEra / 146096) / 365

/-- Days of an era before its year `yearOfEra`. -/
def daysBefore (yearOfEra : Int) : Int := 365 * yearOfEra + yearOfEra / 4 - yearOfEra / 100

def ofDays (days : Int) : Civil :=
  let shifted := days + epochShift
  let era := shifted / eraDays
  let dayOfEra := shifted - era * eraDays
  let yoe := yearOfEra dayOfEra
  let dayOfYear := dayOfEra - daysBefore yoe
  let monthIndex := (5 * dayOfYear + 2) / 153
  let day := dayOfYear - (153 * monthIndex + 2) / 5 + 1
  let month := if monthIndex < 10 then monthIndex + 3 else monthIndex - 9
  { year := yoe + era * 400 + (if month ≤ 2 then 1 else 0), month := month.toNat, day := day.toNat }

def toDays (date : Civil) : Int :=
  let year := if date.month ≤ 2 then date.year - 1 else date.year
  let era := year / 400
  let yoe := year - era * 400
  let monthIndex : Int := if 2 < date.month then date.month - 3 else date.month + 9
  let dayOfYear := (153 * monthIndex + 2) / 5 + date.day - 1
  era * eraDays + daysBefore yoe + dayOfYear - epochShift

end Civil

/-- The day of the week, with Sunday as zero. -/
def weekday (days : Int) : Int := (days + 4) % 7

end PortableQuery.Calendar
