import PortableQuery.Calendar.Instant

/-!
# Time zones

A zone is known by its distance from universal time at each moment, whatever rules that distance
follows.
-/

namespace PortableQuery.Calendar

structure Zone where
  /-- Seconds ahead of universal time at a count of milliseconds. -/
  offset : Int → Int

/-- The zones that are known by name. -/
abbrev Zone.Table := String → Option Zone

/-- `YYYY-MM-DD HH:MM:SS` in a zone, in universal time if there is none. -/
def Instant.format (zone : Option Zone) (instant : Instant) : String :=
  instant.clockText ((zone.map fun z => z.offset instant.millis).getD 0)

end PortableQuery.Calendar
