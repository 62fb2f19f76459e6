import DownloadQuery.Field.Truth
import DownloadQuery.Field.Value
import DownloadQuery.Number.Whole

/-!
# Reading raw values

How each kind reads the raw value of a field. Null is the unknown value of every kind.
-/

namespace DownloadQuery
namespace ValueKind

/-- The shape of a raw value, kept as it is. -/
def readUntyped (raw : Json) : FieldValue :=
  match raw with
  | .null => .null
  | .bool b => .bool b
  | .integer n => if n < Int.pow 2 63 then .int n else .float (Binary64.ofInt n)
  | .number x => .float x
  | .string s => .text s
  | .array elements =>
    .list (elements.map fun
      | .string s => s
      | other => other.compact)
  | .object _ => .text raw.compact

/-- The number of a raw value. -/
def readNumber? : Json → Option Binary64
  | .integer n => some (Binary64.ofInt n)
  | .number x => some x
  | .bool b => some (if b then 1 else 0)
  | .string s => (FieldValue.numberOfText s).toOption
  | _ => none

/-- The integer of a raw value; the fraction of a number is dropped. -/
def readInteger? : Json → Option Int
  | .integer n => if n < Int.pow 2 63 then some n else some (Binary64.ofInt n).toInt64
  | .number x => some x.toInt64
  | .bool b => some (if b then 1 else 0)
  | .string s =>
    let trimmed := Text.trimChars s.toList
    if trimmed = [] then some 0 else (Whole.readInt64 trimmed).toOption
  | _ => none

/-- Integers count thousandths, other numbers stand for themselves. -/
def readRatio? : Json → Option Binary64
  | .integer n => some (Binary64.ofInt n / 1000)
  | raw => readNumber? raw

def readText? : Json → Option String
  | .string s => some s
  | .integer n => some (toString n)
  | .number x => some x.jsonText
  | .bool b => some (if b then "true" else "false")
  | _ => none

def readBoolean? : Json → Option Bool
  | .bool b => some b
  | .integer n => some (n != 0)
  | .number x => some (!x.eq 0)
  | .string s => Truth.ofWord? (Text.trim s)
  | _ => none

/-- The texts of a raw value: one, or a list of them. -/
def readTexts? : Json → Option (List String)
  | .string s => some [s]
  | .array elements => elements.mapM fun
    | .string s => some s
    | _ => none
  | _ => none

/-- The words of all texts in lower case. -/
def readTags? (raw : Json) : Option TagSet :=
  (readTexts? raw).map fun texts => .ofList ((texts.flatMap Text.words).map Text.lower)

def readFiles? : Json → Option (List FileEntry)
  | .array elements => elements.mapM FileEntry.ofJson?
  | _ => none

/-- A point in time; zero is unset, and a whole number of seconds is an integer. -/
def timestampValue (x : Binary64) : FieldValue :=
  if x.eq 0 then .null
  else if x.isWhole then .int x.toInt64
  else .float x

/-- What a kind makes of a raw value that is not null. -/
def read? (kind : ValueKind) (raw : Json) : Option FieldValue :=
  match kind with
  | .untyped => some (readUntyped raw)
  | .integer => (readInteger? raw).map .int
  | .float => (readNumber? raw).map .float
  | .ratio => (readRatio? raw).map .float
  | .text => (readText? raw).map .text
  | .boolean => (readBoolean? raw).map .bool
  | .tags => (readTags? raw).map .tags
  | .files => (readFiles? raw).map .files
  | .list => (readTexts? raw).map .list
  | .timestamp => (readNumber? raw).map timestampValue
  | .duration => (readNumber? raw).map .float

/-- The value that a kind makes of the raw value of a field. -/
def convert (kind : ValueKind) (field : String) (raw : Json) : Except FieldError FieldValue :=
  if raw.isNull then .ok .null
  else
    match kind.read? raw with
    | some v => .ok v
    | none => .error (.conversion field raw.compact (.kind kind))

end ValueKind
end DownloadQuery
