/-!
# Files

What reading a text file gives: its content, or why it cannot be read.
-/

namespace DownloadQuery

/-- Why a file cannot be read. -/
inductive FileFault where
  | absent
  | denied
  | notInDirectory
  | isDirectory
  | notText
  | other (reason : String)
  deriving DecidableEq, Repr

namespace FileFault

def message : FileFault → String
  | .absent => "No such file or directory (os error 2)"
  | .denied => "Permission denied (os error 13)"
  | .notInDirectory => "Not a directory (os error 20)"
  | .isDirectory => "Is a directory (os error 21)"
  | .notText => "stream did not contain valid UTF-8"
  | .other reason => reason

end FileFault

/-- The content of files by path. -/
abbrev Files := String → Except FileFault String

end DownloadQuery
