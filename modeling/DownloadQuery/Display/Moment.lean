import DownloadQuery.Calendar.Zone
import DownloadQuery.Number.Binary64

/-!
# Moments for people

A timestamp as date and time of day in a local zone, such as `2024-01-31 12:30:00`.
-/

namespace DownloadQuery
namespace Display

/-- A number with leading zeros. -/
def zeroPadded (width n : Nat) : String :=
  let digits := toString n
  String.ofList (List.replicate (width - digits.length) '0') ++ digits

/-- A year of four digits; other years have a sign and at least four digits. -/
def year (y : Int) : String :=
  if 0 ≤ y ∧ y ≤ 9999 then zeroPadded 4 y.toNat
  else (if y < 0 then "-" else "+") ++ zeroPadded 4 y.natAbs

def date (d : Date) : String :=
  year d.year ++ "-" ++ zeroPadded 2 d.month ++ "-" ++ zeroPadded 2 d.day

/-- The time of day after some seconds of it. -/
def timeOfDay (seconds : Nat) : String :=
  zeroPadded 2 (seconds / 3600) ++ ":" ++ zeroPadded 2 (seconds / 60 % 60) ++ ":" ++
    zeroPadded 2 (seconds % 60)

/-- Date and time of day of a local time, in seconds from local 1970-01-01. -/
def localTime (seconds : Int) : String :=
  date (Date.ofDays (seconds / daySeconds)) ++ " " ++ timeOfDay (seconds % daySeconds).toNat

/-- The text of a timestamp; one that the calendar does not cover is never. -/
def moment (zone : Zone) (timestamp : Binary64) : String :=
  let instant := timestamp.toInt64
  if Zone.isCovered instant then localTime (zone.localTime instant) else "never"

end Display
end DownloadQuery
