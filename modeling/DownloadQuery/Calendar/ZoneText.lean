import DownloadQuery.Calendar.Zone

/-!
# Zone texts

Reading a zone from its one-line text: a name and the hours behind universal time, then, for a zone
with daylight time, its name, perhaps its own hours, and the days of both changes.
-/

namespace DownloadQuery
namespace Zone

/-- A reader takes a part off the front of a text. -/
abbrev Reader (α : Type) := List Char → Option (α × List Char)

/-- A zone name: at least three letters, or any name between angle brackets. -/
def readName : Reader Unit
  | '<' :: text =>
    let inside := text.takeWhile fun c => c.isAlphanum || c == '+' || c == '-'
    match text.drop inside.length with
    | '>' :: rest => some ((), rest)
    | _ => none
  | text =>
    let name := text.takeWhile Char.isAlpha
    if 3 ≤ name.length then some ((), text.drop name.length) else none

def readNat : Reader Nat := fun text =>
  let digits := text.takeWhile Char.isDigit
  if digits = [] then none
  else some (digits.foldl (fun n c => 10 * n + (c.toNat - '0'.toNat)) 0, text.drop digits.length)

/-- A number below sixty after a colon, or nothing. -/
def readSixtieth (text : List Char) : Option (Nat × List Char) :=
  match text with
  | ':' :: rest => do
    let (n, rest) ← readNat rest
    if n < 60 then some (n, rest) else none
  | _ => some (0, text)

/-- Hours, minutes and seconds as seconds; hours are at most `greatest`. -/
def readClock (greatest : Nat) : Reader Int := fun text => do
  let (negative, text) :=
    match text with
    | '-' :: rest => (true, rest)
    | '+' :: rest => (false, rest)
    | _ => (false, text)
  let (hours, text) ← readNat text
  if hours > greatest then none
  let (minutes, text) ← readSixtieth text
  let (seconds, text) ← readSixtieth text
  let total : Int := hours * 3600 + minutes * 60 + seconds
  some (if negative then -total else total, text)

def readYearDay : Reader YearDay
  | 'J' :: text => do
    let (day, rest) ← readNat text
    if 1 ≤ day ∧ day ≤ 365 then some (.counted day, rest) else none
  | 'M' :: text => do
    let (month, text) ← readNat text
    let '.' :: text := text | none
    let (week, text) ← readNat text
    let '.' :: text := text | none
    let (weekday, rest) ← readNat text
    if 1 ≤ month ∧ month ≤ 12 ∧ 1 ≤ week ∧ week ≤ 5 ∧ weekday ≤ 6 then
      some (.weekday month week weekday, rest)
    else none
  | text => do
    let (day, rest) ← readNat text
    if day ≤ 365 then some (.zeroBased day, rest) else none

/-- A change after a comma; without a clock time it is at two o'clock. -/
def readChange : Reader Change
  | ',' :: text => do
    let (day, text) ← readYearDay text
    match text with
    | '/' :: text =>
      let (seconds, rest) ← readClock 24 text
      some (⟨day, seconds⟩, rest)
    | _ => some (⟨day, 7200⟩, text)
  | _ => none

/-- The zone a text names. The hours of the text count behind universal time. -/
def ofText? (text : String) : Option Zone := do
  let ((), rest) ← readName text.toList
  let (behind, rest) ← readClock 24 rest
  if rest = [] then return .fixed (-behind)
  let ((), rest) ← readName rest
  let (ahead, rest) ←
    match rest with
    | ',' :: _ => some (behind - 3600, rest)
    | _ => readClock 24 rest
  let (start, rest) ← readChange rest
  let (stop, rest) ← readChange rest
  if rest = [] then some (.seasonal (-behind) (-ahead) start stop) else none

/-- The zone a text names; universal time if it names none. -/
def ofText (text : String) : Zone := (ofText? text).getD utc

end Zone
end DownloadQuery
