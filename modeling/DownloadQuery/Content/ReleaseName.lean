import DownloadQuery.Pattern.RegexReader
import DownloadQuery.Text.Lower
import DownloadQuery.Text.Split

/-!
# Release names

What a name tells about the content: an episode, a season or a film. A release name starts with a
title; a marker such as `.S01E02` ends it. The title is the shortest one that leaves a marker, and it
must not hold words that belong to the marks of a release.
-/

namespace DownloadQuery

/-- What a name announces. -/
inductive Release where
  | tv
  | movie
  deriving DecidableEq, Repr

namespace Release

def label : Release → String
  | .tv => "tv"
  | .movie => "movie"

/-- The expression of a marker. -/
def marker (text : String) : Regex := (Regex.read? text.toList).getD .empty

/-- Markers of episodes, daily shows, seasons and series of few parts. -/
def tvMarkers : List Regex :=
  [marker "[._ ]S?(?P<season>\\d{1,2})[xE](?P<episode>\\d{2}(?:-?E\\d{2})?)",
   marker "[._ ](?P<date>\\d{4}\\.\\d{2}\\.\\d{2})",
   marker "[._ ]S(?P<season>\\d{1,2})(?:[._ -]|$)",
   marker "[._ ](?:Part[._ ]?(?:\\d+|[ivx]{1,3})|Pilot)(?:[._ -]|$)"]

/-- A year, then words, then the name of a source. -/
def movieMarkers : List Regex :=
  [marker ("[._ ][\\[(]?(?P<year>\\d{4})[)\\]]?(?:[._ ]\\w+)*?[._ ]" ++
     "(?:BDRip|BRRip|HDRip|DVDRip|PAL|NTSC)(?:[._ -]|$)"),
   marker ("[._ ][\\[(]?(?P<year>\\d{4})[)\\]]?(?:[._ ]\\w+)*?[._ ]" ++
     "(?:Blu-ray|BluRay|BD25|BD50)(?:[._ -]|$)")]

/-- Parts of names that only broadcasts have. -/
def broadcastMarks : List String := [".hdtv.", ".pdtv.", ".dsr."]

/-- Words that no title has. -/
def releaseWords : List String :=
  ["bdrip", "brrip", "hdrip", "dvdrip", "ntsc", "hdtv", "dvd-r", "dvdr", "dvd5", "dvd9", "web-dl",
   "blu-ray", "bluray", "bd25", "bd50", "480p", "576p", "720p", "1080p", "2160p", "mp3", "ac3",
   "dts"]

/-- The shortest title, of at least one character and without a line feed, that a marker follows;
`title` is what has been taken of it, last character first. -/
def titleFrom (r : Regex) (codes : List Nat) : (title : List Char) → List Char → Option (List Char)
  | title, text =>
    if title != [] && r.matchesAt codes title.length then some title.reverse
    else
      match text with
      | [] => none
      | c :: rest => if c = '\n' then none else titleFrom r codes (c :: title) rest

/-- The title of a name that has a marker. -/
def title? (r : Regex) (name : List Char) : Option (List Char) :=
  titleFrom r (name.map Char.toNat) [] name

def isTitle (title : List Char) : Bool :=
  let lowered := Text.lowerChars title
  !releaseWords.any fun word => Text.occursIn word.toList lowered

/-- Whether a marker divides a title from the rest of a name. -/
def hasMarker (markers : List Regex) (name : List Char) : Bool :=
  markers.any fun r => (title? r name).any isTitle

/-- What a name announces, if anything. -/
def ofName? (name : String) : Option Release :=
  let chars := name.toList
  if chars = [] || "VTS_".toList.isPrefixOf chars then none
  else
    let lowered := Text.lowerChars chars
    let isBroadcast := broadcastMarks.any fun mark => Text.occursIn mark.toList lowered
    if hasMarker tvMarkers chars then some .tv
    else if isBroadcast then some .tv
    else if hasMarker movieMarkers chars then some .movie
    else none

end Release
end DownloadQuery
