/-!
# Kinds of values

What the values of a field mean. The kind decides how a raw value is read.
-/

namespace DownloadQuery

inductive ValueKind where
  /-- Whatever shape the raw value has. -/
  | untyped
  | integer
  | float
  /-- A ratio; an integer counts thousandths. -/
  | ratio
  | text
  | boolean
  /-- A set of words. -/
  | tags
  | files
  | list
  /-- Seconds since 1970-01-01; zero means unset. -/
  | timestamp
  /-- A span in seconds. -/
  | duration
  deriving DecidableEq, Repr

namespace ValueKind

def label : ValueKind → String
  | .untyped => "untyped"
  | .integer => "integer"
  | .float => "float"
  | .ratio => "ratio"
  | .text => "text"
  | .boolean => "boolean"
  | .tags => "tags"
  | .files => "files"
  | .list => "list"
  | .timestamp => "timestamp"
  | .duration => "duration"

def all : List ValueKind :=
  [.untyped, .integer, .float, .ratio, .text, .boolean, .tags, .files, .list, .timestamp, .duration]

/-- The kind of a label. -/
def ofLabel? (label : String) : Option ValueKind := all.find? (·.label == label)

end ValueKind
end DownloadQuery
