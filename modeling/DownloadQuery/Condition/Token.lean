import DownloadQuery.Text.Blank

/-!
# Tokens of conditions

A condition is split into tokens at blanks. Quotes keep blanks in a token and are taken off;
a backslash takes the next character as it is, between double quotes only a quote or a backslash.
A token that holds blanks, quotes or backslashes can be written so that it is read back unchanged.
-/

namespace DownloadQuery
namespace Token

/-- What surrounds the next character. -/
inductive Quoting where
  | bare
  | single
  | double
  deriving DecidableEq, Repr

/-- Adds a character to the token that has been begun, or begins one; tokens are held reversed. -/
def push (c : Char) (token : Option (List Char)) : Option (List Char) := some (c :: token.getD [])

/-- Begins a token, if none has been begun. -/
def begun (token : Option (List Char)) : Option (List Char) := some (token.getD [])

/-- Reads the tokens of a text; none if a quote stays open. -/
def splitFrom : Quoting → (token : Option (List Char)) → List Char → Option (List (List Char))
  | .bare, token, [] => some (token.toList.map List.reverse)
  | .bare, token, ['\\'] => splitFrom .bare (begun token) []
  | .bare, token, '\\' :: c :: rest => splitFrom .bare (push c token) rest
  | .bare, token, c :: rest =>
    if c = '\x27' then splitFrom .single (begun token) rest
    else if c = '\x22' then splitFrom .double (begun token) rest
    else if Text.isBlank c then
      match token with
      | none => splitFrom .bare none rest
      | some t => (splitFrom .bare none rest).map (t.reverse :: ·)
    else splitFrom .bare (push c token) rest
  | .single, _, [] => none
  | .single, token, c :: rest =>
    if c = '\x27' then splitFrom .bare token rest else splitFrom .single (push c token) rest
  | .double, _, [] => none
  | .double, _, ['\\'] => none
  | .double, token, '\\' :: c :: rest =>
    if c = '\x22' ∨ c = '\\' then splitFrom .double (push c token) rest
    else splitFrom .double (push c (push '\\' token)) rest
  | .double, token, c :: rest =>
    if c = '\x22' then splitFrom .bare token rest else splitFrom .double (push c token) rest
termination_by structural _ _ text => text

/-- The tokens of a text; none if a quote stays open. -/
def split? (text : String) : Option (List String) :=
  (splitFrom .bare none text.toList).map (·.map String.ofList)

/-- Whether a character would not be read back as a part of a bare token. -/
def isSpecial (c : Char) : Bool :=
  Text.isBlank c || c == '\x27' || c == '\x22' || c == '\\'

/-- A character between double quotes. -/
def escapeChar (c : Char) : List Char :=
  if c = '\\' ∨ c = '\x22' then ['\\', c] else [c]

/-- Writes a token, between quotes if it needs them. -/
def writeChars (token : List Char) : List Char :=
  if token.any isSpecial then '\x22' :: token.flatMap escapeChar ++ ['\x22'] else token

def write (token : String) : String := String.ofList (writeChars token.toList)

end Token
end DownloadQuery
