import DownloadQuery.Field.FileEntry
import DownloadQuery.Field.TagSet
import DownloadQuery.Halt
import DownloadQuery.Text.Lower
import DownloadQuery.Text.Split

/-!
# File types

The type of a file is told by the extension of its name. A list of files is summed up by the share of
bytes of each type.
-/

namespace DownloadQuery
namespace FileType

/-- The last name of a path; a path that ends above itself has none. -/
def lastName? (path : List Char) : Option (List Char) :=
  let names := (Text.splitAt '/' path).filter fun name => name != [] && name != ['.']
  match names.getLast? with
  | some name => if name = ['.', '.'] then none else some name
  | none => none

/-- What follows the last dot of a name, unless that is its first character. -/
def extensionOfName? (name : List Char) : Option (List Char) :=
  match (Text.splitAt '.' name).reverse with
  | [] => none
  | [_] => none
  | [_, []] => none
  | last :: _ => some last

/-- The extension of a path, in lower case. -/
def extension? (path : String) : Option String :=
  ((lastName? path.toList).bind extensionOfName?).map fun ext =>
    String.ofList (Text.lowerChars ext)

/-- Types under one name: parts of an archive and spellings of image and video types. -/
def normalized (ext : String) : String :=
  match ext.toList with
  | 'r' :: digit :: digits => if (digit :: digits).all Char.isDigit then "rar" else ext
  | _ => if ext = "jpeg" then "jpg" else if ext = "mpeg" then "mpg" else ext

/-- The type of a file, empty if its name has no extension. -/
def ofPath (path : String) : String := normalized ((extension? path).getD "")

end FileType

/-- The share of one file type in percent. -/
structure TypeShare where
  percent : Nat
  type : String
  deriving DecidableEq, Repr

namespace TypeShare

/-- The order of shares: the greater share first, of equal ones the greater type. -/
def before (a b : TypeShare) : Bool :=
  b.percent < a.percent || (b.percent == a.percent && !(a.type < b.type))

/-- The sum of sizes, which must never be too great while they are added up. -/
def sum (sizes : List UInt64) : Except Overflow UInt64 :=
  let add (total size : UInt64) : Except Overflow UInt64 :=
    if total.toNat + size.toNat < UInt64.size then .ok (total + size) else .error ⟨⟩
  sizes.foldlM add 0

/-- The bytes of the files of one type. -/
def sizeOf (files : List FileEntry) (type : String) : Except Overflow UInt64 :=
  sum ((files.filter fun f => FileType.ofPath f.path == type).map (·.size))

/-- A part of a total in percent, rounded, but a half and a little more is rounded down. -/
def percentOf (part total : UInt64) : Nat :=
  if total = 0 then 0
  else
    (Binary64.ofInt part.toNat * 100 / Binary64.ofInt total.toNat +
      Binary64.ofRatio false 499 1000).toNat32

/-- The share of each type among files. -/
def ofFiles (files : List FileEntry) : Except Overflow (List TypeShare) := do
  let types := (TagSet.ofList (files.map fun f => FileType.ofPath f.path)).toList
  let sizes ← types.mapM (sizeOf files)
  let total ← sum sizes
  let shares := List.zipWith (fun type size => ⟨percentOf size total, type⟩) types sizes
  return shares.mergeSort before

/-- The types that have a name and at least a share of the bytes. -/
def dominantTypes (files : List FileEntry) (percent : Nat) : Except Overflow (List String) := do
  let shares ← ofFiles files
  return (shares.filter fun s => s.type != "" && percent ≤ s.percent).map (·.type)

end TypeShare
end DownloadQuery
