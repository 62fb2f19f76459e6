import DownloadQuery.Display.Style
import DownloadQuery.Field.Source

/-!
# Fields

A field names one attribute of an item and says what its values mean, where they come from, how long
they hold, how they may be compared and how they are shown.
-/

namespace DownloadQuery

/-- How long a value holds once it has been read. -/
inductive Freshness where
  /-- It never changes. -/
  | constant
  /-- It may change at any time. -/
  | dynamic
  /-- It is read when it is first asked for, and kept by the item. -/
  | onDemand
  deriving DecidableEq, Repr

namespace Freshness

def label : Freshness → String
  | .constant => "constant"
  | .dynamic => "dynamic"
  | .onDemand => "on-demand"

def all : List Freshness := [.constant, .dynamic, .onDemand]

def ofLabel? (label : String) : Option Freshness := all.find? (·.label == label)

end Freshness

/-- The families of comparisons. -/
inductive Family where
  | pattern
  | files
  | tagged
  | bool
  | float
  | byteSize
  | time
  /-- Times of which unset ones pass no comparison but those with zero. -/
  | timeNotNull
  | duration
  /-- The literal decides. -/
  | magic
  deriving DecidableEq, Repr

namespace Family

def name : Family → String
  | .pattern => "Pattern"
  | .files => "Files"
  | .tagged => "Tagged"
  | .bool => "Bool"
  | .float => "Float"
  | .byteSize => "ByteSize"
  | .time => "Time"
  | .timeNotNull => "TimeNotNull"
  | .duration => "Duration"
  | .magic => "Magic"

def label : Family → String
  | .pattern => "pattern"
  | .files => "files"
  | .tagged => "tags"
  | .bool => "bool"
  | .float => "float"
  | .byteSize => "bytes"
  | .time => "time"
  | .timeNotNull => "time"
  | .duration => "duration"
  | .magic => "magic"

def all : List Family :=
  [.pattern, .files, .tagged, .bool, .float, .byteSize, .time, .timeNotNull, .duration, .magic]

/-- The family of a name. -/
def ofName? (name : String) : Option Family := all.find? (·.name == name)

end Family

structure Field where
  name : String
  doc : String
  kind : ValueKind
  freshness : Freshness
  source : Source
  family? : Option Family
  style? : Option Style
  deriving DecidableEq, Repr

namespace Field

/-- The text that shows a value of the field. -/
def shown (f : Field) (zone : Zone) (v : FieldValue) : String :=
  match f.style? with
  | some style => style.apply zone v
  | none => v.toText

end Field
end DownloadQuery
