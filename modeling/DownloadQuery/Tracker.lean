import DownloadQuery.Field.TagSet
import DownloadQuery.Text.Split

/-!
# Trackers

Short names for trackers. A table gives each alias its announce URLs; a URL that is not in it belongs
to the alias with a URL on the same server, and otherwise goes by the domain of its host.
-/

namespace DownloadQuery

/-- Aliases of trackers and their announce URLs. -/
abbrev AnnounceTable := List (String × List String)

namespace Tracker

/-- The scheme and the network location of a URL; without a scheme the URL starts with the latter. -/
def splitUrl (url : List Char) : List Char × List Char :=
  let (scheme, rest) := (Text.cutAt? "://".toList url).getD ([], url)
  (scheme, rest.takeWhile fun c => c != '/' && c != '?' && c != '#')

/-- How all URLs on the server of a URL start. -/
def serverOf (url : List Char) : List Char :=
  let (scheme, location) := splitUrl url
  scheme ++ "://".toList ++ location ++ ['/']

/-- The last two labels of the host of a URL. -/
def domainOf (url : List Char) : List Char :=
  let host := (splitUrl url).2.takeWhile (· != ':')
  let labels := Text.splitAt '.' host
  ['.'].intercalate (labels.drop (labels.length - 2))

/-- The least alias with a URL that passes a test. -/
def leastAlias? (table : AnnounceTable) (test : String → Bool) : Option String :=
  (TagSet.ofList ((table.filter fun (_, urls) => urls.any test).map (·.1))).toList.head?

/-- The alias of an announce URL. -/
def aliasOf (table : AnnounceTable) (url : String) : String :=
  match leastAlias? table (· == url) with
  | some short => short
  | none =>
    match leastAlias? table fun known => (serverOf url.toList).isPrefixOf known.toList with
    | some short => short
    | none => String.ofList (domainOf url.toList)

end Tracker
end DownloadQuery
