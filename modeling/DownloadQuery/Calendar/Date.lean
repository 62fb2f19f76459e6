/-!
# Dates

Days of the proleptic Gregorian calendar and their number from 1970-01-01. Years are counted from
March inside a cycle of 400 years, so that the leap day is the last day of its year.
-/

namespace DownloadQuery

/-- A day of the calendar. -/
structure Date where
  year : Int
  month : Nat
  day : Nat
  deriving DecidableEq, Repr

namespace Date

def isLeap (year : Int) : Bool :=
  year % 4 == 0 && (year % 100 != 0 || year % 400 == 0)

def daysInMonth (year : Int) (month : Nat) : Nat :=
  if month = 2 then (if isLeap year then 29 else 28)
  else if month = 4 ∨ month = 6 ∨ month = 9 ∨ month = 11 then 30
  else 31

/-- The years the calendar covers. -/
def leastYear : Int := -262143
def greatestYear : Int := 262142

/-- Whether the day exists in a covered year. -/
def Exists (d : Date) : Prop :=
  leastYear ≤ d.year ∧ d.year ≤ greatestYear ∧ 1 ≤ d.month ∧ d.month ≤ 12 ∧ 1 ≤ d.day ∧
    d.day ≤ daysInMonth d.year d.month

instance (d : Date) : Decidable d.Exists := by unfold Exists; infer_instance

/-- The day with these parts, if it exists. -/
def ofParts? (year : Int) (month day : Nat) : Option Date :=
  let d : Date := ⟨year, month, day⟩
  if d.Exists then some d else none

/-- Days in a cycle of 400 years. -/
def cycle : Int := 146097

/-- Days from the start of the cycle that holds year zero to 1970-01-01. -/
def epochShift : Int := 719468

/-- The number of days from 1970-01-01. -/
def toDays (d : Date) : Int :=
  let marchYear := if d.month ≤ 2 then d.year - 1 else d.year
  let marchMonth : Int := if d.month ≤ 2 then d.month + 9 else d.month - 3
  let yearOfCycle := marchYear % 400
  let dayOfYear := (153 * marchMonth + 2) / 5 + d.day - 1
  marchYear / 400 * cycle +
    (yearOfCycle * 365 + yearOfCycle / 4 - yearOfCycle / 100 + dayOfYear) - epochShift

/-- The day a number of days from 1970-01-01. -/
def ofDays (days : Int) : Date :=
  let shifted := days + epochShift
  let dayOfCycle := shifted % cycle
  let yearOfCycle :=
    (dayOfCycle - dayOfCycle / 1460 + dayOfCycle / 36524 - dayOfCycle / 146096) / 365
  let dayOfYear := dayOfCycle - (365 * yearOfCycle + yearOfCycle / 4 - yearOfCycle / 100)
  let marchMonth := (5 * dayOfYear + 2) / 153
  let day := dayOfYear - (153 * marchMonth + 2) / 5 + 1
  let month := if marchMonth < 10 then marchMonth + 3 else marchMonth - 9
  let year := yearOfCycle + shifted / cycle * 400
  ⟨if month ≤ 2 then year + 1 else year, month.toNat, day.toNat⟩

/-- Monday is 1, Saturday 6, Sunday 0. -/
def weekday (d : Date) : Nat := ((d.toDays + 4) % 7).toNat

/-- The same day of the month some months earlier, or the last day of a shorter month. -/
def monthsBefore? (d : Date) (months : Nat) : Option Date :=
  let total := d.year * 12 + (d.month : Int) - 1 - months
  let year := total / 12
  let month := (total % 12).toNat + 1
  ofParts? year month (min d.day (daysInMonth year month))

end Date
end DownloadQuery
