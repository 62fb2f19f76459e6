import DownloadQuery.Json.Value

/-!
# Files of an item

One file of a download: its path, its size in bytes, the time it was last changed, and its priority.
-/

namespace DownloadQuery

structure FileEntry where
  path : String
  size : UInt64
  changed : Option Binary64
  priority : Int
  deriving DecidableEq, Repr

namespace FileEntry

/-- A file of which the path alone is known. -/
def ofPath (path : String) : FileEntry := ⟨path, 0, none, 1⟩

def readSize? : Json → Option UInt64
  | .integer n => if 0 ≤ n then some (UInt64.ofNat n.toNat) else none
  | _ => none

/-- The time of the last change; null means that it is not known. -/
def readChanged? : Json → Option (Option Binary64)
  | .null => some none
  | .integer n => some (some (Binary64.ofInt n))
  | .number x => some (some x)
  | _ => none

def readPath? : Json → Option String
  | .string s => some s
  | _ => none

/-- A part of an entry that may be missing. -/
def part? {α : Type} (read : Json → Option α) (missing : α) : Option Json → Option α
  | none => some missing
  | some raw => read raw

/-- An entry from the raw forms of its parts. -/
def ofParts? (path size changed priority : Option Json) : Option FileEntry := do
  let path ← path
  return {
    path := ← readPath? path
    size := ← part? readSize? 0 size
    changed := ← part? readChanged? none changed
    priority := ← part? Json.toInt64? 0 priority }

/-- An entry from its path alone, from an object, or from its parts in order. -/
def ofJson? : Json → Option FileEntry
  | .string path => some (ofPath path)
  | .object members =>
    ofParts? (members.lookup "path") (members.lookup "size") (members.lookup "mtime")
      (members.lookup "prio")
  | .array parts =>
    if parts.length ≤ 4 then ofParts? parts[0]? parts[1]? parts[2]? parts[3]? else none
  | _ => none

/-- The object of an entry. -/
def toJson (f : FileEntry) : Json :=
  let changed :=
    match f.changed with
    | some x => [("mtime", Json.ofBinary64 x)]
    | none => []
  .object (changed ++
    [("path", .string f.path), ("prio", .integer f.priority), ("size", .integer f.size.toNat)])

end FileEntry
end DownloadQuery
