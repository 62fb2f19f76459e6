import DownloadQuery.Field.Kind

/-!
# Errors of fields

Why the value of a field cannot be had, and the clash of two fields of one name.
-/

namespace DownloadQuery

/-- What a value was to become. -/
inductive Wanted where
  | number
  | kind (k : ValueKind)
  deriving DecidableEq, Repr

namespace Wanted

def label : Wanted → String
  | .number => "a number"
  | .kind k => k.label

end Wanted

inductive FieldError where
  | unknown (name : String)
  /-- A value, as shown, is not what was wanted of the field. -/
  | conversion (field shown : String) (wanted : Wanted)
  | access (field reason : String)
  /-- The share that a field name asks for is above a hundred percent. -/
  | percentOutOfRange (name percent : String)
  deriving DecidableEq, Repr

namespace FieldError

def message : FieldError → String
  | .unknown name => s!"Unknown field '{name}'"
  | .conversion field shown wanted =>
    s!"Cannot convert value {shown} of field '{field}' to " ++ wanted.label
  | .access field reason => s!"While accessing field '{field}': {reason}"
  | .percentOutOfRange name percent => s!"Bad field name '{name}': {percent} > 100"

/-- The field the error is about. -/
def field : FieldError → String
  | .unknown name => name
  | .conversion field _ _ => field
  | .access field _ => field
  | .percentOutOfRange name _ => name

end FieldError

/-- A field name is taken. -/
structure DuplicateField where
  name : String
  deriving DecidableEq, Repr

namespace DuplicateField

def message (d : DuplicateField) : String := s!"Duplicate field definition '{d.name}'"

end DuplicateField
end DownloadQuery
