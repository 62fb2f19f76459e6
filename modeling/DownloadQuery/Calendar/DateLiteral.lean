import DownloadQuery.Calendar.Zone
import DownloadQuery.Number.Binary64
import DownloadQuery.Number.Whole
import DownloadQuery.Text.Blank
import DownloadQuery.Text.Split

/-!
# Date literals

Absolute dates in three spellings, `2024-01-31`, `01/31/2024` and `31.01.2024`, each with an optional
time of day of one to three parts. The first blank or letter T separates the two.
-/

namespace DownloadQuery

/-- Why a text is no date in the wanted spelling. -/
inductive DateFault where
  | tooShort
  | invalid
  | outOfRange
  | trailing
  deriving DecidableEq, Repr

namespace DateFault

def message : DateFault → String
  | .tooShort => "premature end of input"
  | .invalid => "input contains invalid characters"
  | .outOfRange => "input is out of range"
  | .trailing => "trailing input"

end DateFault

/-- Why a literal is no date. -/
inductive DateError where
  | date (fault : DateFault)
  | timePart (fault : WholeError)
  | tooManyParts (time : String)
  | noSuchTime (time : String)
  | skipped (literal : String)
  deriving DecidableEq, Repr

namespace DateError

def message : DateError → String
  | .date fault => fault.message
  | .timePart fault => fault.message
  | .tooManyParts time => s!"too many time components in '{time}'"
  | .noSuchTime time => s!"invalid time of day '{time}'"
  | .skipped literal => s!"'{literal}' does not exist in the local timezone"

end DateError

namespace DateLiteral

/-- One part of a date. -/
inductive Part where
  | year
  | month
  | day
  deriving DecidableEq, Repr

/-- A spelling: the order of the parts and the mark between them. -/
structure Spelling where
  mark : Char
  parts : List Part

/-- The spelling is chosen by the marks of the text. -/
def spellingOf (text : List Char) : Spelling :=
  if text.contains '/' then ⟨'/', [.month, .day, .year]⟩
  else if text.contains '.' then ⟨'.', [.day, .month, .year]⟩
  else ⟨'-', [.year, .month, .day]⟩

/-- Reads up to `width` digits onto `value`; a value beyond a 64-bit word is out of range. -/
def readDigits : (width : Nat) → Nat → List Char → Except DateFault (Nat × List Char)
  | 0, value, text => .ok (value, text)
  | _ + 1, value, [] => .ok (value, [])
  | width + 1, value, c :: rest =>
    match Whole.digit? c with
    | none => .ok (value, c :: rest)
    | some d =>
      if 10 * value + d < Nat.pow 2 63 then readDigits width (10 * value + d) rest
      else .error .outOfRange

/-- A number of one to `width` digits. -/
def readNumber (width : Nat) : List Char → Except DateFault (Nat × List Char)
  | [] => .error .tooShort
  | c :: rest =>
    if Whole.isDigit c then readDigits width 0 (c :: rest) else .error .invalid

/-- The year, with a sign of any length, without one at most four digits. -/
def readYear (text : List Char) : Except DateFault (Int × List Char) := do
  let (year, rest) ←
    match text with
    | '-' :: rest => do
      let (n, rest) ← readNumber rest.length rest
      pure (-(n : Int), rest)
    | '+' :: rest => do
      let (n, rest) ← readNumber rest.length rest
      pure ((n : Int), rest)
    | _ => do
      let (n, rest) ← readNumber 4 text
      pure ((n : Int), rest)
  if -Int.pow 2 31 ≤ year ∧ year < Int.pow 2 31 then return (year, rest) else throw .outOfRange

/-- A number of one or two digits from one to `greatest`. -/
def readBounded (greatest : Nat) (text : List Char) : Except DateFault (Nat × List Char) := do
  let (n, rest) ← readNumber 2 text
  if 1 ≤ n ∧ n ≤ greatest then return (n, rest) else throw .outOfRange

/-- Reads one part into a date; blanks before it are skipped. -/
def readPart (part : Part) (date : Date) (text : List Char) :
    Except DateFault (Date × List Char) := do
  let text := text.dropWhile Text.isBlank
  match part with
  | .year =>
    let (year, rest) ← readYear text
    return ({ date with year }, rest)
  | .month =>
    let (month, rest) ← readBounded 12 text
    return ({ date with month }, rest)
  | .day =>
    let (day, rest) ← readBounded 31 text
    return ({ date with day }, rest)

/-- The mark between two parts. -/
def readMark (mark : Char) : List Char → Except DateFault (List Char)
  | [] => .error .tooShort
  | c :: rest => if c = mark then .ok rest else .error .invalid

/-- Reads parts with marks between them. -/
def readParts (mark : Char) : List Part → Date → List Char → Except DateFault (Date × List Char)
  | [], date, text => .ok (date, text)
  | [part], date, text => readPart part date text
  | part :: parts, date, text => do
    let (date, text) ← readPart part date text
    let text ← readMark mark text
    readParts mark parts date text

/-- The date a text spells; the day must exist. -/
def readDate (text : List Char) : Except DateFault Date := do
  let spelling := spellingOf text
  let (date, rest) ← readParts spelling.mark spelling.parts ⟨0, 1, 1⟩ text
  if rest ≠ [] then throw .trailing
  if date.Exists then return date else throw .outOfRange

/-- The numbers between colons. -/
def readTimeParts : List (List Char) → Except DateError (List Nat)
  | [] => .ok []
  | part :: parts =>
    match Whole.readNat (Nat.pow 2 32 - 1) part with
    | .error fault => .error (.timePart fault)
    | .ok n => (readTimeParts parts).map (n :: ·)

/-- Seconds since midnight; missing parts are zero. -/
def readTime (text : List Char) : Except DateError Int := do
  let parts ← readTimeParts (Text.splitAt ':' text)
  if 3 < parts.length then throw (.tooManyParts (String.ofList text))
  let hour := parts.getD 0 0
  let minute := parts.getD 1 0
  let second := parts.getD 2 0
  if hour < 24 ∧ minute < 60 ∧ second < 60 then
    return hour * 3600 + minute * 60 + second
  else throw (.noSuchTime (String.ofList text))

/-- The capital form of a character as far as it holds a T, and T for a blank. -/
def capital (c : Char) : List Char :=
  if c = ' ' ∨ c = 't' then ['T']
  else if c = '\ufb05' ∨ c = '\ufb06' then ['S', 'T']
  else if c = '\u1e97' then ['T', '\u0308']
  else [c]

/-- The date part and the time part, if there is one. -/
def split (literal : String) : List Char × Option (List Char) :=
  let text := literal.toList.flatMap capital
  match text.dropWhile (· != 'T') with
  | [] => (text, none)
  | _ :: time => (text.takeWhile (· != 'T'), some time)

/-- The local time a literal names, in seconds from local 1970-01-01. -/
def readLocal (literal : String) : Except DateError Int := do
  let (datePart, timePart) := split literal
  let date ← (readDate datePart).mapError .date
  let seconds ←
    match timePart with
    | none => pure 0
    | some time => readTime time
  return date.toDays * daySeconds + seconds

/-- The instant a literal names, in seconds. -/
def readInstant (zone : Zone) (literal : String) : Except DateError Int := do
  let localTime ← readLocal literal
  match zone.earliest? localTime with
  | some instant => return instant
  | none => throw (.skipped literal)

/-- The timestamp a literal names. -/
def read (zone : Zone) (literal : String) : Except DateError Binary64 :=
  (readInstant zone literal).map fun instant => Binary64.ofInt (instant * 1000) / 1000

end DateLiteral
end DownloadQuery
