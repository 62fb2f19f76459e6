import DownloadQuery.Calendar.Zone
import DownloadQuery.Number.Binary64
import DownloadQuery.Number.Whole
import DownloadQuery.Text.Classes

/-!
# Spans before now

Literals like `1y2m3w4d5h6i7s`: counts of years, months, weeks, days, hours, minutes and seconds, in
this order, each of them optional and its letter in either case. Years and months step through the
calendar, the other units are fixed spans.
-/

namespace DownloadQuery

/-- The digits given for each unit, if any. -/
structure Delta where
  years : Option (List Char)
  months : Option (List Char)
  weeks : Option (List Char)
  days : Option (List Char)
  hours : Option (List Char)
  minutes : Option (List Char)
  seconds : Option (List Char)
  deriving DecidableEq, Repr

/-- Why a span cannot be taken back. -/
inductive DeltaError where
  | count (fault : WholeError)
  | outOfRange (literal : String)
  deriving DecidableEq, Repr

namespace DeltaError

def message : DeltaError → String
  | .count fault => fault.message
  | .outOfRange literal => s!"delta out of range: {literal}"

end DeltaError

/-- Milliseconds since 1970-01-01 as a count of seconds. -/
def timestampOfMillis (millis : Int) : Binary64 := Binary64.ofInt millis / 1000

namespace Delta

/-- Takes the count of a unit off the front, if it is there. Digits of any script count. -/
def readUnit (unit : Char) (text : List Char) : Option (List Char) × List Char :=
  let digits := text.takeWhile Text.isDecimalDigit
  match text.dropWhile Text.isDecimalDigit with
  | [] => (none, text)
  | c :: rest =>
    if digits ≠ [] ∧ (c = unit ∨ c = unit.toUpper) then (some digits, rest) else (none, text)

/-- The span a text denotes; the empty text is the empty span. -/
def read? (text : List Char) : Option Delta :=
  let (years, text) := readUnit 'y' text
  let (months, text) := readUnit 'm' text
  let (weeks, text) := readUnit 'w' text
  let (days, text) := readUnit 'd' text
  let (hours, text) := readUnit 'h' text
  let (minutes, text) := readUnit 'i' text
  let (seconds, text) := readUnit 's' text
  if text = [] then some ⟨years, months, weeks, days, hours, minutes, seconds⟩ else none

/-- The count of a unit; a missing one is zero. Only ASCII digits can be read as a number. -/
def count : Option (List Char) → Except DeltaError Nat
  | none => .ok 0
  | some digits => (Whole.readNat (Nat.pow 2 64 - 1) digits).mapError .count

/-- All months of a span, as a 32-bit count. -/
def monthCount (d : Delta) (literal : String) : Except DeltaError Nat := do
  let years ← count d.years
  let tooMany := DeltaError.outOfRange literal
  if Nat.pow 2 64 ≤ years * 12 then throw tooMany
  match count d.months with
  | .error _ => throw tooMany
  | .ok months =>
    let total := years * 12 + months
    if total < Nat.pow 2 32 then return total else throw tooMany

/-- The instant, in milliseconds, some months earlier at the same local time. -/
def monthsBefore? (zone : Zone) (now : Int) (months : Nat) : Option Int := do
  let clock := zone.localTime (now / 1000)
  let date ← (Date.ofDays (clock / daySeconds)).monthsBefore? months
  let instant ← zone.only? (date.toDays * daySeconds + clock % daySeconds)
  return instant * 1000 + now % 1000

/-- The fixed part of a span in seconds. -/
def fixedSeconds (d : Delta) : Except DeltaError Binary64 := do
  let weeks ← count d.weeks
  let days ← count d.days
  let hours ← count d.hours
  let minutes ← count d.minutes
  let seconds ← count d.seconds
  return Binary64.ofInt weeks * 7 * 86400 + Binary64.ofInt days * 86400 +
    Binary64.ofInt hours * 3600 + Binary64.ofInt minutes * 60 + Binary64.ofInt seconds

/-- The timestamp a span before `now`, which is in milliseconds. -/
def before (d : Delta) (zone : Zone) (now : Int) (literal : String) :
    Except DeltaError Binary64 := do
  let months ← d.monthCount literal
  match monthsBefore? zone now months with
  | none => throw (.outOfRange literal)
  | some shifted => return timestampOfMillis shifted - (← d.fixedSeconds)

end Delta
end DownloadQuery
