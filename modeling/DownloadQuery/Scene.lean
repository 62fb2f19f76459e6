import DownloadQuery.Calendar.Zone

/-!
# The scene of a query

What values and literals depend on beside the items: the reference time, the local zone, and the
files that are there.
-/

namespace DownloadQuery

/-- A reference time, in milliseconds from 1970-01-01, and the local zone. -/
structure Clock where
  zone : Zone
  now : Int
  deriving DecidableEq, Repr

structure Scene where
  clock : Clock
  fileExists : String → Bool
  /-- The canonical form of the path of a file that is there. -/
  canonicalPath? : String → Option String

end DownloadQuery
