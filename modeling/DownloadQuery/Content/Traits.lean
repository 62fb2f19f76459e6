import DownloadQuery.Content.ReleaseName

/-!
# Classification

The traits of a download, from the general to the special: what it is and its file type. A tracker
with a theme settles the first; otherwise the file type does, and the release name may refine it.
-/

namespace DownloadQuery
namespace Traits

def audioTypes : List String := ["flac", "mp3", "ogg", "wav", "dts", "ac3", "alac", "wma"]

def videoTypes : List String :=
  ["avi", "mkv", "m4v", "vob", "mp4", "mpg", "mpeg", "m2ts", "ts", "ogv", "wmv"]

def imageTypes : List String := ["jpg", "png", "gif", "tif", "bmp", "svg"]

def documentTypes : List String :=
  ["chm", "pdf", "cbr", "cbz", "odt", "ods", "doc", "xls", "ppt", "epub", "mobi", "azw3", "djvu"]

def archiveTypes : List String := ["rar", "zip", "tgz", "bz2", "iso", "bin"]

/-- What files of a type are, and whether a release name may tell more. -/
def ofType? (type : String) : Option (String × Bool) :=
  if type ∈ audioTypes then some ("audio", false)
  else if type ∈ videoTypes then some ("video", true)
  else if type ∈ imageTypes then some ("img", false)
  else if type ∈ documentTypes then some ("docs", false)
  else if type ∈ archiveTypes then some ("misc", true)
  else none

/-- The theme of a tracker. -/
def theme? (themes : List (String × String)) (tracker? : Option String) : Option String :=
  tracker?.bind fun tracker => themes.lookup tracker

/-- The traits of a download by its name, its tracker and its main file type. -/
def ofDownload (name : String) (tracker? type? : Option String)
    (themes : List (String × String)) : List String :=
  let type? := type?.map fun type => String.ofList (type.toList.dropWhile (· == '.'))
  match theme? themes tracker? with
  | some theme => [theme, type?.getD "other"]
  | none =>
    let type := type?.getD ""
    match ofType? type with
    | none => []
    | some (general, refined) =>
      match if refined then Release.ofName? name else none with
      | some release => [release.label, type]
      | none => [general, type]

end Traits
end DownloadQuery
