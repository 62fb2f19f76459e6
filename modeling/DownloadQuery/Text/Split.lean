/-!
# Splitting texts

Cutting texts at marks and finding texts in others.
-/

namespace DownloadQuery
namespace Text

/-- The pieces of a text between marks; there is always one. -/
def splitAt (mark : Char) : List Char → List (List Char)
  | [] => [[]]
  | c :: rest =>
    if c = mark then [] :: splitAt mark rest
    else
      match splitAt mark rest with
      | [] => [[c]]
      | piece :: pieces => (c :: piece) :: pieces

/-- What stands before and after the first place where a mark occurs. -/
def cutAt? (mark : List Char) : List Char → Option (List Char × List Char)
  | [] => if mark = [] then some ([], []) else none
  | c :: rest =>
    if mark.isPrefixOf (c :: rest) then some ([], (c :: rest).drop mark.length)
    else (cutAt? mark rest).map fun (before, after) => (c :: before, after)

/-- Whether a text occurs in another. -/
def occursIn (part text : List Char) : Bool := (cutAt? part text).isSome

/-- What follows a text at the front of another. -/
def stripFront? : (front : List Char) → List Char → Option (List Char)
  | [], text => some text
  | _ :: _, [] => none
  | f :: front, c :: rest => if f = c then stripFront? front rest else none

end Text
end DownloadQuery
