import DownloadQuery.Field.Error
import DownloadQuery.Field.FileEntry
import DownloadQuery.Field.TagSet
import DownloadQuery.Json.Printer
import DownloadQuery.Number.Decimal
import DownloadQuery.Text.Blank
import DownloadQuery.Text.Lower
import DownloadQuery.Text.Quoted

/-!
# Field values

The value of a field of one item, and the views that comparisons take of it: a text, a number, a set
of tags, a truth value.
-/

namespace DownloadQuery

inductive FieldValue where
  /-- Unknown, unset, or never. -/
  | null
  | bool (b : Bool)
  | int (i : Int)
  | float (x : Binary64)
  | text (s : String)
  | tags (t : TagSet)
  | files (entries : List FileEntry)
  | list (parts : List String)
  deriving DecidableEq, Repr

namespace FieldValue

def isNull : FieldValue → Bool
  | .null => true
  | _ => false

/-- Whether there is something: unknown values, zero and empty ones are false. -/
def isTruthy : FieldValue → Bool
  | .null => false
  | .bool b => b
  | .int i => i != 0
  | .float x => !x.eq 0
  | .text s => s != ""
  | .tags t => t.toList != []
  | .files entries => entries != []
  | .list parts => parts != []

/-- The text that shows a value. -/
def shown : FieldValue → String
  | .null => "N/A"
  | .bool b => if b then "true" else "false"
  | .int i => toString i
  | .float x => x.text
  | .text s => s
  | .tags t => " ".intercalate t.toList
  | .files entries => ", ".intercalate (entries.map (·.path))
  | .list parts => "/".intercalate parts

/-- The text of a value, empty if it is unknown. -/
def toText : FieldValue → String
  | .null => ""
  | v => v.shown

/-- The number of a text; blanks around it do not count, and blanks alone are zero. -/
def numberOfText (s : String) : Except DecimalError Binary64 :=
  let trimmed := Text.trimChars s.toList
  if trimmed = [] then .ok 0 else Decimal.read trimmed

/-- The number of a value, zero if it is unknown. -/
def toNumber (field : String) : FieldValue → Except FieldError Binary64
  | .null => .ok 0
  | .bool b => .ok (if b then 1 else 0)
  | .int i => .ok (Binary64.ofInt i)
  | .float x => .ok x
  | .text s =>
    match numberOfText s with
    | .ok x => .ok x
    | .error _ => .error (.conversion field (Text.quoted s) .number)
  | v => .error (.conversion field v.shown .number)

/-- The tags of a value: its words in lower case, or the parts of a list. -/
def toTags : FieldValue → TagSet
  | .null => .empty
  | .tags t => t
  | .list parts => .ofList (parts.map Text.lower)
  | v => .ofList ((Text.words v.toText).map Text.lower)

/-- The raw form of a value. -/
def toJson : FieldValue → Json
  | .null => .null
  | .bool b => .bool b
  | .int i => .integer i
  | .float x => Json.ofBinary64 x
  | .text s => .string s
  | .tags t => .array (t.toList.map .string)
  | .files entries => .array (entries.map FileEntry.toJson)
  | .list parts => .array (parts.map .string)

end FieldValue
end DownloadQuery
