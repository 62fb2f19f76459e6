import DownloadQuery.Calendar.Date

/-!
# Local time zones

A zone has a fixed distance from universal time, or standard and daylight time with yearly rules for
the two changes. A local time may then be skipped or stand for two instants.
-/

namespace DownloadQuery

/-- Seconds in a day. -/
def daySeconds : Int := 86400

/-- A day that recurs every year. -/
inductive YearDay where
  /-- Day 1 to 365; 29 February is never counted. -/
  | counted (day : Nat)
  /-- Day 0 to 365; 29 February is counted. -/
  | zeroBased (day : Nat)
  /-- A weekday of the first to fourth, or the last (5), week of a month. -/
  | weekday (month week weekday : Nat)
  deriving DecidableEq, Repr

namespace YearDay

/-- The number of days from 1970-01-01 to the day in the given year. -/
def inYear (year : Int) : YearDay → Int
  | .counted day =>
    (Date.mk year 1 1).toDays + day - 1 + (if Date.isLeap year && 60 ≤ day then 1 else 0)
  | .zeroBased day => (Date.mk year 1 1).toDays + day
  | .weekday month week wanted =>
    let first : Date := ⟨year, month, 1⟩
    let offset := ((wanted : Int) - first.weekday) % 7
    let day := 1 + offset + ((week : Int) - 1) * 7
    let day := if day > Date.daysInMonth year month then day - 7 else day
    first.toDays + day - 1

/-- The month the day falls in. -/
def monthIn (year : Int) (d : YearDay) : Nat := (Date.ofDays (d.inYear year)).month

end YearDay

/-- A yearly change: a day and the local seconds of that day. -/
structure Change where
  day : YearDay
  seconds : Int
  deriving DecidableEq, Repr

/-- A local time zone; offsets are in seconds east of universal time. -/
inductive Zone where
  | fixed (offset : Int)
  | seasonal (standard daylight : Int) (start stop : Change)
  deriving DecidableEq, Repr

/-- What a local time stands for: no instant, one, or two, by their offsets. -/
inductive Offsets where
  | skipped
  | single (offset : Int)
  | twice (first second : Int)
  deriving DecidableEq, Repr

namespace Zone

def utc : Zone := .fixed 0

/-- The seconds from 1970-01-01 of a change in a year, on the clock that `shift` is added to. -/
def changeAt (c : Change) (year shift : Int) : Int :=
  c.day.inYear year * daySeconds + c.seconds + shift

/-- Whether daylight time holds at an instant. Changes of the years around it are considered. -/
def isDaylight (standard daylight : Int) (start stop : Change) (instant : Int) : Bool :=
  let year := (Date.ofDays (instant / daySeconds)).year
  let startIn (y : Int) := changeAt start y (-standard)
  let stopIn (y : Int) := changeAt stop y (-daylight)
  if startIn year ≤ stopIn year then
    if instant < startIn year then
      instant < stopIn (year - 1) && startIn (year - 1) ≤ instant
    else if instant < stopIn year then true
    else startIn (year + 1) ≤ instant && instant < stopIn (year + 1)
  else if instant < stopIn year then
    instant < startIn (year - 1) → instant < stopIn (year - 1)
  else if instant < startIn year then false
  else stopIn (year + 1) ≤ instant → startIn (year + 1) ≤ instant

/-- The offset that holds at an instant, in seconds from 1970-01-01. -/
def offsetAt (instant : Int) : Zone → Int
  | .fixed offset => offset
  | .seasonal standard daylight start stop =>
    if isDaylight standard daylight start stop instant then daylight else standard

/-- The offsets a local time may have, when clocks go forward at `start` and back at `stop`.
The minute a change begins still belongs to the time before it. -/
def forwardOffsets (standard daylight : Int) (start stop : Change) (year localTime : Int) :
    Offsets :=
  let gap := daylight - standard
  let startBegin := changeAt start year 0
  let startEnd := startBegin + gap
  let stopBegin := changeAt stop year 0
  let stopEnd := stopBegin - gap
  if start.day.monthIn year < stop.day.monthIn year then
    if localTime ≤ startBegin then .single standard
    else if localTime < startEnd then .skipped
    else if localTime < stopEnd then .single daylight
    else if localTime ≤ stopBegin then .twice standard daylight
    else .single standard
  else
    if localTime < stopEnd then .single daylight
    else if localTime ≤ stopBegin then .twice standard daylight
    else if localTime < startBegin then .single standard
    else if localTime < startEnd then .skipped
    else .single daylight

/-- The offsets a local time may have, when clocks go back at `start` and forward at `stop`. -/
def backwardOffsets (standard daylight : Int) (start stop : Change) (year localTime : Int) :
    Offsets :=
  let gap := standard - daylight
  let startBegin := changeAt start year 0
  let startEnd := startBegin - gap
  let stopBegin := changeAt stop year 0
  let stopEnd := stopBegin + gap
  if start.day.monthIn year < stop.day.monthIn year then
    if localTime < startEnd then .single standard
    else if localTime ≤ startBegin then .twice daylight standard
    else if localTime < stopBegin then .single daylight
    else if localTime < stopEnd then .skipped
    else .single standard
  else
    if localTime ≤ stopBegin then .single daylight
    else if localTime < stopEnd then .skipped
    else if localTime < startEnd then .single standard
    else if localTime ≤ startBegin then .twice daylight standard
    else .single daylight

/-- The offsets that a local time, in seconds from local 1970-01-01, may have. -/
def offsetsOf (localTime : Int) : Zone → Offsets
  | .fixed offset => .single offset
  | .seasonal standard daylight start stop =>
    let year := (Date.ofDays (localTime / daySeconds)).year
    if standard = daylight then .single standard
    else if standard < daylight then forwardOffsets standard daylight start stop year localTime
    else backwardOffsets standard daylight start stop year localTime

/-- The instants the calendar covers. -/
def isCovered (instant : Int) : Bool :=
  (Date.mk Date.leastYear 1 1).toDays * daySeconds ≤ instant &&
    instant < ((Date.mk Date.greatestYear 12 31).toDays + 1) * daySeconds

/-- The instant of a local time, if there is one; of two the one listed first. -/
def earliest? (zone : Zone) (localTime : Int) : Option Int :=
  let settle (offset : Int) :=
    if isCovered (localTime - offset) then some (localTime - offset) else none
  match zone.offsetsOf localTime with
  | .skipped => none
  | .single offset => settle offset
  | .twice first _ => settle first

/-- The instant of a local time that stands for exactly one. -/
def only? (zone : Zone) (localTime : Int) : Option Int :=
  match zone.offsetsOf localTime with
  | .single offset =>
    if isCovered (localTime - offset) then some (localTime - offset) else none
  | _ => none

/-- The local time of an instant, in seconds from local 1970-01-01. -/
def localTime (zone : Zone) (instant : Int) : Int := instant + zone.offsetAt instant

end Zone
end DownloadQuery
