import DownloadQuery.Field.Value
import DownloadQuery.Files
import DownloadQuery.Json.Reader
import DownloadQuery.Text.Split

/-!
# Items

A download as a snapshot of raw values, and the values of on-demand fields that it keeps once they
have been read.
-/

namespace DownloadQuery

/-- The raw values of an item by name. -/
abbrev Snapshot := List (String × Json)

structure Item where
  raw : Snapshot
  kept : List (String × FieldValue)
  deriving Repr

/-- Why a text holds no items. -/
inductive ItemsError where
  | unreadable
  | notAList (found : String)
  | notAnObject (index : Nat)
  deriving DecidableEq, Repr

namespace ItemsError

def message : ItemsError → String
  | .unreadable => "Failed to parse items file"
  | .notAList found => s!"Expected a list of items, got {found}"
  | .notAnObject index => s!"Item #{index} is not an object"

end ItemsError

/-- Why a file holds no items. -/
inductive ItemsFileError where
  | unreadable (path : String) (fault : FileFault)
  | noItems (path : String) (e : ItemsError)
  deriving DecidableEq, Repr

namespace ItemsFileError

def message : ItemsFileError → String
  | .unreadable path fault => s!"Failed to read items file '{path}': " ++ fault.message
  | .noItems path .unreadable => ItemsError.unreadable.message ++ s!" '{path}'"
  | .noItems _ e => e.message

end ItemsFileError

namespace Snapshot

/-- The key of a custom attribute. -/
def customKey? (name : String) : Option String :=
  (Text.stripFront? "custom_".toList name.toList).map String.ofList

/-- The raw value of a name, null if there is none. A custom attribute may also stand in the object
of all of them. -/
def value (raw : Snapshot) (name : String) : Json :=
  match raw.lookup name with
  | some v => v
  | none =>
    match customKey? name with
    | some key => ((raw.lookup "custom").bind (Json.get? key)).getD .null
    | none => .null

end Snapshot

namespace Item

def ofSnapshot (raw : Snapshot) : Item := ⟨raw, []⟩

/-- The value that the item keeps under a name. -/
def kept? (item : Item) (name : String) : Option FieldValue := item.kept.lookup name

/-- Keeps a value under a name. -/
def keep (item : Item) (name : String) (v : FieldValue) : Item :=
  { item with kept := (name, v) :: item.kept.filter fun entry => entry.1 != name }

/-- Items from the elements of a list, of which the first has the given index. -/
def ofElements (index : Nat) : List Json → Except ItemsError (List Item)
  | [] => .ok []
  | .object members :: rest => (ofElements (index + 1) rest).map (ofSnapshot members :: ·)
  | _ :: _ => .error (.notAnObject index)

/-- What a value is that is no list. -/
def found : Json → String
  | .object _ => "an object"
  | .string _ => "a string"
  | .integer _ => "a number"
  | .number _ => "a number"
  | .bool _ => "a boolean"
  | _ => "null"

/-- The items of a list of objects. -/
def ofJson : Json → Except ItemsError (List Item)
  | .array elements => ofElements 0 elements
  | v => .error (.notAList (found v))

/-- The items a text holds. -/
def read (text : String) : Except ItemsError (List Item) :=
  match Json.read? text with
  | some v => ofJson v
  | none => .error .unreadable

/-- The items a file holds. -/
def load (files : Files) (path : String) : Except ItemsFileError (List Item) :=
  match files path with
  | .error fault => .error (.unreadable path fault)
  | .ok text => (read text).mapError (.noItems path)

end Item
end DownloadQuery
