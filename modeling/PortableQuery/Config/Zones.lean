import PortableQuery.Calendar.Zone
import PortableQuery.Error

/-!
# Zones by name

A configuration names its zone, and the name is looked up in a table. A small table is at hand for
where no other is given; nothing else depends on the zones in it.
-/

namespace PortableQuery

namespace Calendar

/-- A Sunday of a month, counted from the first or taken as the last, at an hour of universal
time. -/
structure Changeover where
  month : Nat
  nth : Option Nat
  hour : Nat

namespace Changeover

def day (changeover : Changeover) (year : Int) : Int :=
  match changeover.nth with
  | some n =>
    let first := Civil.toDays ⟨year, changeover.month, 1⟩
    first + (7 - weekday first) % 7 + 7 * (n - 1)
  | none =>
    let last := Civil.toDays ⟨year, changeover.month + 1, 1⟩ - 1
    last - weekday last

def millis (changeover : Changeover) (year : Int) : Int :=
  changeover.day year * dayMillis + changeover.hour * 3600000

end Changeover

namespace Zone

def fixed (seconds : Int) : Zone where
  offset _ := seconds

/-- A zone that is an hour ahead of its winter distance between two days of each year. -/
def seasonal (winter : Int) (begins ends : Changeover) : Zone where
  offset millis :=
    let year := (Moment.ofMillis millis).date.year
    if begins.millis year ≤ millis ∧ millis < ends.millis year then winter + 3600 else winter

/-- A few zones by the rules that they follow from 2010 to 2025. -/
def common : Table := fun name =>
  [("UTC", fixed 0),
   ("Europe/Prague", seasonal 3600 ⟨3, none, 1⟩ ⟨10, none, 1⟩),
   ("America/New_York", seasonal (-18000) ⟨3, some 2, 7⟩ ⟨11, some 1, 6⟩),
   ("Asia/Kolkata", fixed 19800),
   ("Asia/Tokyo", fixed 32400),
   ("Etc/GMT+5", fixed (-18000)),
   ("Etc/GMT-14", fixed 50400)].lookup name

/-- The zone of a name; an unknown name is an error of the configuration. -/
def ofName (name : String) (zones : Table := common) : Except Error Zone :=
  match zones name with
  | some zone => .ok zone
  | none => .error (.configuration (.unknownZone name))

end Zone

end Calendar

end PortableQuery
