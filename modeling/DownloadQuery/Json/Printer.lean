import DownloadQuery.Json.Value
import DownloadQuery.Number.Notation

/-!
# JSON text

Writing values, on one line without blanks, or indented by two blanks for each level.
-/

namespace DownloadQuery
namespace Json

/-- Two hexadecimal digits. -/
def hexByte (n : Nat) : List Char := [Nat.digitChar (n / 16), Nat.digitChar (n % 16)]

/-- Quotes, backslashes and control characters are escaped, all else stands for itself. -/
def escapeChar (c : Char) : List Char :=
  if c = '\x22' then ['\\', '\x22']
  else if c = '\\' then ['\\', '\\']
  else if c = '\n' then ['\\', 'n']
  else if c = '\r' then ['\\', 'r']
  else if c = '\t' then ['\\', 't']
  else if c = '\x08' then ['\\', 'b']
  else if c = '\x0c' then ['\\', 'f']
  else if c.toNat < 0x20 then ['\\', 'u', '0', '0'] ++ hexByte c.toNat
  else [c]

def quote (s : String) : String :=
  String.ofList ('\x22' :: s.toList.flatMap escapeChar ++ ['\x22'])

/-- The texts of values that hold no others. -/
def scalarText : Json → String
  | .null => "null"
  | .bool b => if b then "true" else "false"
  | .integer n => toString n
  | .number x => x.jsonText
  | .string s => quote s
  | _ => ""

mutual

/-- The text of a value on one line. -/
def compact : Json → String
  | .array elements => "[" ++ ",".intercalate (compactAll elements) ++ "]"
  | .object members => "\x7b" ++ ",".intercalate (compactMembers members) ++ "\x7d"
  | .null => scalarText .null
  | .bool b => scalarText (.bool b)
  | .integer n => scalarText (.integer n)
  | .number x => scalarText (.number x)
  | .string s => scalarText (.string s)

def compactAll : List Json → List String
  | [] => []
  | v :: rest => compact v :: compactAll rest

def compactMembers : List (String × Json) → List String
  | [] => []
  | (name, v) :: rest => (quote name ++ ":" ++ compact v) :: compactMembers rest

end

/-- A new line indented to a level. -/
def newline (level : Nat) : String := "\n" ++ String.ofList (List.replicate (2 * level) ' ')

/-- Written parts, one a line, between brackets; nothing stands between the brackets of none. -/
def enclose (opening closing : String) (level : Nat) (parts : List String) : String :=
  match parts with
  | [] => opening ++ closing
  | _ =>
    opening ++ newline (level + 1) ++ ("," ++ newline (level + 1)).intercalate parts ++
      newline level ++ closing

mutual

/-- The indented text of a value at a level. -/
def prettyAt (level : Nat) : Json → String
  | .array elements => enclose "[" "]" level (prettyAll (level + 1) elements)
  | .object members => enclose "\x7b" "\x7d" level (prettyMembers (level + 1) members)
  | .null => scalarText .null
  | .bool b => scalarText (.bool b)
  | .integer n => scalarText (.integer n)
  | .number x => scalarText (.number x)
  | .string s => scalarText (.string s)

def prettyAll (level : Nat) : List Json → List String
  | [] => []
  | v :: rest => prettyAt level v :: prettyAll level rest

def prettyMembers (level : Nat) : List (String × Json) → List String
  | [] => []
  | (name, v) :: rest => (quote name ++ ": " ++ prettyAt level v) :: prettyMembers level rest

end

/-- The indented text of a value. -/
def pretty (v : Json) : String := prettyAt 0 v

end Json
end DownloadQuery
