import DownloadQuery.Ascending
import DownloadQuery.Field.Builtin

/-!
# Catalogues of fields

The fields that are known, in the order of their names. A field is added by registering it, and a
field of a parametric name by looking it up; nothing is ever changed or taken out.
-/

namespace DownloadQuery

/-- Fields in ascending order of their names. -/
structure Catalogue where
  fields : List Field
  ascending : fields.Pairwise (·.name < ·.name)

namespace Catalogue

def empty : Catalogue := ⟨[], .nil⟩

/-- The field of a name that is in the catalogue. -/
def get? (c : Catalogue) (name : String) : Option Field := c.fields.find? (·.name == name)

/-- The catalogue with a field whose name is free. -/
def add (c : Catalogue) (f : Field) : Catalogue :=
  ⟨Ascending.place (·.name) f c.fields, Ascending.place_ascending (·.name) f c.ascending⟩

/-- Adds a field, unless its name is taken. -/
def register (c : Catalogue) (f : Field) : Except DuplicateField Catalogue :=
  match c.get? f.name with
  | some _ => .error ⟨f.name⟩
  | none => .ok (c.add f)

/-- Adds fields one by one, up to the first whose name is taken. -/
def registerAll (c : Catalogue) : List Field → Except DuplicateField Catalogue
  | [] => .ok c
  | f :: rest =>
    match c.register f with
    | .ok c => c.registerAll rest
    | .error e => .error e

/-- Adds fields one by one and stops at the first whose name is taken; the fields before it stay. -/
def registerEach (c : Catalogue) : List Field → Except DuplicateField Unit × Catalogue
  | [] => (.ok (), c)
  | f :: rest =>
    match c.register f with
    | .ok c => c.registerEach rest
    | .error e => (.error e, c)

/-- The field that a name stands for: one of the catalogue, or else a parametric one. -/
def resolve (c : Catalogue) (name : String) : Except FieldError (Option Field) :=
  match c.get? name with
  | some f => .ok (some f)
  | none => Field.parametric? name

/-- The field that a name stands for; a parametric one is in the catalogue from then on. -/
def lookup (c : Catalogue) (name : String) : Except FieldError (Option Field) × Catalogue :=
  match c.resolve name with
  | .ok (some f) => (.ok (some f), c.add f)
  | result => (result, c)

/-- The names of all fields. -/
def names (c : Catalogue) : List String := c.fields.map (·.name)

/-- The built-in fields for the trackers of a site. -/
def builtin (table : AnnounceTable) (themes : List (String × String)) :
    Except DuplicateField Catalogue :=
  empty.registerAll (Field.builtins table themes)

/-- Every name stands for an untyped field whose comparisons the literal decides. -/
def openField (name : String) : Field :=
  ⟨name, "untyped record field", .untyped, .dynamic, .stored, some .magic, none⟩

end Catalogue
end DownloadQuery
