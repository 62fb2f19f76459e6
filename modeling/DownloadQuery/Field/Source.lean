import DownloadQuery.Content.FileType
import DownloadQuery.Content.Traits
import DownloadQuery.Field.Conversion
import DownloadQuery.Item
import DownloadQuery.Scene
import DownloadQuery.Tracker

/-!
# Sources of raw values

Where the raw value of a field comes from: from the snapshot of the item, or from a computation on
other raw values of the same item.
-/

namespace DownloadQuery

/-- The computations of the built-in fields. -/
inductive Derivation where
  /-- Whether a path is given and nothing is there. -/
  | ghost
  | transferRate
  | age
  | leechTime
  | seedTime
  | realPath
  | tracker
  /-- The file types that make up a share of the bytes. -/
  | kinds (percent : Nat)
  | trackerAlias (table : AnnounceTable)
  | traits (table : AnnounceTable) (themes : List (String × String))
  deriving DecidableEq, Repr

inductive Source where
  /-- The raw value under the name of the field. -/
  | stored
  /-- The raw value under another name. -/
  | other (name : String)
  /-- Nothing: every reading fails. -/
  | failing (reason : String)
  /-- The number of the reading. -/
  | counter
  | derived (d : Derivation)
  deriving DecidableEq, Repr

namespace Derivation

/-- The raw value of a name as text. -/
def textOf (raw : Snapshot) (name : String) : Except FieldError String :=
  (ValueKind.text.convert name (raw.value name)).map FieldValue.toText

/-- The path of the data of an item, empty if it has none. -/
def pathOf (raw : Snapshot) : Except FieldError String := textOf raw "path"

def numberOf (raw : Snapshot) (name : String) : Except FieldError Binary64 := do
  (← ValueKind.float.convert name (raw.value name)).toNumber name

/-- The raw value of a name as a point in time, if it is set. -/
def timeOf (raw : Snapshot) (name : String) : Except FieldError (Option Binary64) := do
  match ← ValueKind.timestamp.convert name (raw.value name) with
  | .null => return none
  | v => return some (← v.toNumber name)

def filesOf (raw : Snapshot) : Except FieldError (List FileEntry) := do
  match ← ValueKind.files.convert "files" (raw.value "files") with
  | .files entries => return entries
  | _ => return []

/-- The seconds from a start to an end, unknown if either is. -/
def spanBetween (stop start : Option Binary64) : Json :=
  match stop, start with
  | some stop, some start => Json.ofBinary64 (stop - start)
  | _, _ => .null

/-- The first announce URL of an item. -/
def trackerOf (raw : Snapshot) : Except FieldError String := do
  let tracker ← textOf raw "tracker"
  if tracker != "" then return tracker
  match raw.value "announce" with
  | .array urls =>
    return (urls.findSome? fun
      | .string url => some url
      | _ => none).getD ""
  | .string url => return url
  | _ => return ""

/-- The tracker alias of an item, stored or told by its announce URL. -/
def aliasOf (raw : Snapshot) (table : AnnounceTable) : Except FieldError String := do
  let stored ← textOf raw "alias"
  if stored != "" then return stored
  let url ← trackerOf raw
  if url = "" then return "" else return Tracker.aliasOf table url

/-- The main file type of an item: that of most bytes, or else that of its name. -/
def mainType? (name : String) (files : List FileEntry) : Except Overflow (Option String) := do
  match (← TypeShare.ofFiles files).find? (·.type != "") with
  | some share => return some share.type
  | none => return FileType.extension? name

/-- The present time in seconds. -/
def nowOf (scene : Scene) : Binary64 := Binary64.ofInt scene.clock.now / 1000

/-- The raw value that is computed for an item. -/
def compute (scene : Scene) (raw : Snapshot) : Derivation → Except (Halt FieldError) Json
  | .ghost => do
    let path ← pathOf raw
    return .bool (path != "" && !scene.fileExists path)
  | .transferRate => do
    let up ← numberOf raw "up"
    let down ← numberOf raw "down"
    return .integer (up + down).toInt64
  | .age => do
    return spanBetween (some (nowOf scene)) (← timeOf raw "loaded")
  | .leechTime => do
    let stop := (← timeOf raw "completed").getD (nowOf scene)
    return spanBetween (some stop) (← timeOf raw "started")
  | .seedTime => do
    return spanBetween (some (nowOf scene)) (← timeOf raw "completed")
  | .realPath => do
    let path ← pathOf raw
    if path = "" then return .null
    else return .string ((scene.canonicalPath? path).getD path)
  | .tracker => do return .string (← trackerOf raw)
  | .kinds percent => do
    let types ← TypeShare.dominantTypes (← filesOf raw) percent
    return .array (types.map .string)
  | .trackerAlias table => do return .string (← aliasOf raw table)
  | .traits table themes => do
    let name ← textOf raw "name"
    let tracker ← aliasOf raw table
    let type? ← mainType? name (← filesOf raw)
    let tracker? := if tracker = "" then none else some tracker
    return .array ((Traits.ofDownload name tracker? type? themes).map .string)

end Derivation

namespace Source

/-- Whether the value is more than a look into the snapshot. -/
def isDerived : Source → Bool
  | .stored => false
  | _ => true

/-- The raw value of a field of an item at one of its readings, which are counted from one. -/
def read (source : Source) (scene : Scene) (raw : Snapshot) (field : String) (call : Nat) :
    Except (Halt FieldError) Json :=
  match source with
  | .stored => .ok (raw.value field)
  | .other name => .ok (raw.value name)
  | .failing reason => .error (.error (.access field reason))
  | .counter => .ok (.integer call)
  | .derived d => d.compute scene raw

end Source
end DownloadQuery
