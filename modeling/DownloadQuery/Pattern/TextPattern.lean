import DownloadQuery.Pattern.Glob
import DownloadQuery.Pattern.RegexReader
import DownloadQuery.Text.Lower

/-!
# Text patterns

What a literal asks of a text. Between slashes it is a regular expression that some part of the text
matches; an empty literal asks for the empty text; any other is a glob for the whole text. Letter
case never counts.
-/

namespace DownloadQuery

inductive TextPattern where
  | regex (r : Regex)
  | glob (g : Glob)
  | empty
  deriving DecidableEq, Repr

/-- Why a literal is no pattern. -/
inductive PatternError where
  | regex (body : String)
  /-- The fault of a glob, whose text is shown as it was read. -/
  | glob (text : String) (fault : GlobFault)
  deriving DecidableEq, Repr

namespace TextPattern

/-- What stands between two slashes that open and close a literal. -/
def regexBody? : List Char → Option (List Char)
  | '/' :: rest =>
    match rest.getLast? with
    | some '/' => some rest.dropLast
    | _ => none
  | _ => none

/-- The pattern a literal denotes. -/
def read (literal : String) : Except PatternError TextPattern :=
  match regexBody? literal.toList with
  | some body =>
    match Regex.read? body with
    | some r => .ok (.regex r)
    | none => .error (.regex (String.ofList body))
  | none =>
    if literal.isEmpty then .ok .empty
    else
      let text := Glob.escape (Text.lowerChars literal.toList)
      match Glob.read text with
      | .ok g => .ok (.glob g)
      | .error fault => .error (.glob (String.ofList text) fault)

/-- Whether a text fits the pattern. -/
def isMatch (p : TextPattern) (text : String) : Bool :=
  let lowered := Text.lowerChars text.toList
  match p with
  | .regex r => r.occursIn (lowered.map Char.toNat)
  | .glob g => g.isMatch lowered
  | .empty => lowered.isEmpty

end TextPattern
end DownloadQuery
