import DownloadQuery.Field.Catalogue
import DownloadQuery.Files
import DownloadQuery.Toml.Reader

/-!
# Configuration

The settings of a site: the field of conditions that name none, the trackers and their themes, fields
of its own, and the fields that are shown.
-/

namespace DownloadQuery

/-- The families that a configured field may choose. -/
inductive CustomFamily where
  | text
  | files
  | tags
  | bool
  | float
  | bytes
  | time
  | duration
  | magic
  deriving DecidableEq, Repr

namespace CustomFamily

def name : CustomFamily → String
  | .text => "text"
  | .files => "files"
  | .tags => "tags"
  | .bool => "bool"
  | .float => "float"
  | .bytes => "bytes"
  | .time => "time"
  | .duration => "duration"
  | .magic => "magic"

def all : List CustomFamily :=
  [.text, .files, .tags, .bool, .float, .bytes, .time, .duration, .magic]

def ofName? (name : String) : Option CustomFamily := all.find? (·.name == name)

/-- The kind of the values and the family of comparisons. -/
def kindAndFamily : CustomFamily → ValueKind × Family
  | .text => (.text, .pattern)
  | .files => (.files, .files)
  | .tags => (.tags, .tagged)
  | .bool => (.boolean, .bool)
  | .float => (.float, .float)
  | .bytes => (.integer, .byteSize)
  | .time => (.timestamp, .timeNotNull)
  | .duration => (.duration, .duration)
  | .magic => (.untyped, .magic)

end CustomFamily

/-- A field that reads a raw value, by default that of its own name. -/
structure CustomField where
  name : String
  source? : Option String
  family : CustomFamily
  doc? : Option String
  deriving DecidableEq, Repr

namespace CustomField

def sourceName (f : CustomField) : String := f.source?.getD f.name

/-- The field that is meant. -/
def field (f : CustomField) : Field :=
  let (kind, family) := f.family.kindAndFamily
  let source := f.sourceName
  let doc := f.doc?.getD s!"user-defined field reading '{source}'"
  ⟨f.name, doc, kind, .dynamic, .other source, some family, none⟩

end CustomField

/-- Why a file holds no configuration. -/
inductive ConfigError where
  | unreadable (path : String) (fault : FileFault)
  | malformed (path : String)
  deriving DecidableEq, Repr

namespace ConfigError

def message : ConfigError → String
  | .unreadable path fault => s!"Failed to read config file '{path}': " ++ fault.message
  | .malformed path => s!"Failed to parse config file '{path}'"

end ConfigError

structure Config where
  defaultField : String
  strict : Bool
  announce : AnnounceTable
  themes : List (String × String)
  customFields : List CustomField
  outputFields : List String
  deriving DecidableEq, Repr

namespace Config

/-- The settings that hold where a configuration says nothing. -/
def standard : Config := ⟨"name", false, [], [], [], ["name", "size", "done", "alias"]⟩

/-- The catalogue of the built-in and the configured fields. -/
def catalogue (c : Config) : Except DuplicateField Catalogue :=
  match Catalogue.builtin c.announce c.themes with
  | .ok built => built.registerAll (c.customFields.map CustomField.field)
  | .error e => .error e

/-- The value of a key by a reader, or another if there is none. -/
def entry? {α : Type} (entries : List (String × Toml)) (key : String) (read : Toml → Option α)
    (missing : α) : Option α :=
  match entries.lookup key with
  | some v => read v
  | none => some missing

/-- Values by key by a reader. -/
def entries? {α : Type} (read : Toml → Option α) (v : Toml) : Option (List (String × α)) := do
  (← v.table?).mapM fun (key, v) => do return (key, ← read v)

/-- A family by its name, or by a table with its name and nothing else. -/
def family? : Toml → Option CustomFamily
  | .string name => CustomFamily.ofName? name
  | .table [(name, .table [])] => CustomFamily.ofName? name
  | .table [(name, .array [])] => CustomFamily.ofName? name
  | _ => none

/-- The keys of a configured field, in the order of a field that is given as a list. -/
def customFieldKeys : List String := ["name", "source", "matcher", "doc"]

/-- A configured field, as a table or as a list; it must have a name. -/
def customField? (v : Toml) : Option CustomField := do
  let entries ←
    match v with
    | .table entries => some entries
    | .array elements => some (customFieldKeys.zip elements)
    | _ => none
  let name ← entries.lookup "name"
  return {
    name := ← name.string?
    source? := ← entry? entries "source" (·.string?.map some) none
    family := ← entry? entries "matcher" family? .magic
    doc? := ← entry? entries "doc" (·.string?.map some) none }

/-- The configuration of a table; keys without a meaning are left out. -/
def ofToml? (entries : List (String × Toml)) : Option Config := do
  let customFields (v : Toml) : Option (List CustomField) := v.array?.bind (·.mapM customField?)
  return {
    defaultField := ← entry? entries "default_field" Toml.string? standard.defaultField
    strict := ← entry? entries "strict" Toml.bool? standard.strict
    announce := ← entry? entries "announce" (entries? Toml.strings?) standard.announce
    themes := ← entry? entries "traits_by_alias" (entries? Toml.string?) standard.themes
    customFields := ← entry? entries "custom_fields" customFields standard.customFields
    outputFields := ← entry? entries "output_fields" Toml.strings? standard.outputFields }

/-- The configuration a text holds. -/
def read? (text : String) : Option Config := (Toml.read? text).bind ofToml?

/-- The configuration of a file, or the standard one without a file. -/
def load (files : Files) : (path? : Option String) → Except ConfigError Config
  | none => .ok standard
  | some path =>
    match files path with
    | .error fault => .error (.unreadable path fault)
    | .ok text =>
      match read? text with
      | some c => .ok c
      | none => .error (.malformed path)

end Config
end DownloadQuery
