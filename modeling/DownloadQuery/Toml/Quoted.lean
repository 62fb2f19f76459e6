import DownloadQuery.Number.Radix

/-!
# TOML strings

Strings between single or double marks, on one line, or between three marks over many. Double marks
have escapes, and there a backslash at the end of a line joins it to the next text.
-/

namespace DownloadQuery
namespace Toml

/-- Blanks inside of a line. -/
def isBlank (c : Char) : Bool := c == ' ' || c == '\t'

/-- Characters that may stand in strings and comments: tabs and all but controls. -/
def isPlain (c : Char) : Bool := c == '\t' || (0x20 ≤ c.toNat && c.toNat != 0x7f)

/-- Takes a line end off the front. -/
def stripLineEnd? : List Char → Option (List Char)
  | '\n' :: rest => some rest
  | '\r' :: '\n' :: rest => some rest
  | _ => none

/-- The character with a code of so many digits. -/
def readCode (count : Nat) (text : List Char) : Option (Char × List Char) := do
  let digits := text.take count
  if digits.length < count then none
  return (← Radix.char? (← Radix.nat? 16 digits), text.drop count)

/-- The character of an escape, from what follows the backslash. -/
def readEscape : List Char → Option (Char × List Char)
  | [] => none
  | c :: rest =>
    match c with
    | 'b' => some ('\x08', rest)
    | 't' => some ('\t', rest)
    | 'n' => some ('\n', rest)
    | 'f' => some ('\x0c', rest)
    | 'r' => some ('\r', rest)
    | 'e' => some ('\x1b', rest)
    | '\x22' => some ('\x22', rest)
    | '\\' => some ('\\', rest)
    | 'x' => readCode 2 rest
    | 'u' => readCode 4 rest
    | 'U' => readCode 8 rest
    | _ => none

/-- Skips blanks and line ends. -/
def dropMargin (text : List Char) : List Char :=
  text.dropWhile fun c => isBlank c || c == '\n' || c == '\r'

/-- Reads to the closing mark of a string on one line. -/
def readLine (mark : Char) : (fuel : Nat) → (read : List Char) → List Char →
    Option (String × List Char)
  | 0, _, _ => none
  | _ + 1, _, [] => none
  | fuel + 1, read, c :: rest =>
    if c = mark then some (String.ofList read.reverse, rest)
    else if c = '\\' ∧ mark = '\x22' then do
      let (c, rest) ← readEscape rest
      readLine mark fuel (c :: read) rest
    else if isPlain c then readLine mark fuel (c :: read) rest
    else none

/-- Reads to the closing marks of a string over many lines. Up to two marks before them belong to
the string. -/
def readLines (mark : Char) : (fuel : Nat) → (read : List Char) → List Char →
    Option (String × List Char)
  | 0, _, _ => none
  | _ + 1, _, [] => none
  | fuel + 1, read, c :: rest =>
    if [mark, mark, mark].isPrefixOf (c :: rest) then
      let more := ((rest.drop 2).takeWhile (· == mark)).take 2
      some (String.ofList (read.reverse ++ more), rest.drop (2 + more.length))
    else if c = '\\' ∧ mark = '\x22' then
      match stripLineEnd? (rest.dropWhile isBlank) with
      | some rest => readLines mark fuel read (dropMargin rest)
      | none => do
        let (c, rest) ← readEscape rest
        readLines mark fuel (c :: read) rest
    else
      match stripLineEnd? (c :: rest) with
      | some rest' =>
        let lineEnd := (c :: rest).take (rest.length + 1 - rest'.length)
        readLines mark fuel (lineEnd.reverse ++ read) rest'
      | none => if isPlain c then readLines mark fuel (c :: read) rest else none

/-- A string from its first mark. A line end right after three marks does not belong to it. -/
def readString (mark : Char) (text : List Char) : Option (String × List Char) :=
  match text with
  | a :: b :: c :: rest =>
    if a = mark ∧ b = mark ∧ c = mark then
      readLines mark (rest.length + 1) [] ((stripLineEnd? rest).getD rest)
    else if a = mark then readLine mark (rest.length + 3) [] (b :: c :: rest)
    else none
  | a :: rest => if a = mark then readLine mark (rest.length + 1) [] rest else none
  | [] => none

end Toml
end DownloadQuery
