import DownloadQuery.Toml.Draft
import DownloadQuery.Toml.Quoted
import DownloadQuery.Toml.Scalar

/-!
# Reading TOML

A document is a list of lines, each blank, the header of a table, or a name and its value.
-/

namespace DownloadQuery
namespace Toml

/-- Skips blanks, line ends and comments; none at a character that no comment may hold. -/
def skipLines : (inComment : Bool) → List Char → Option (List Char)
  | _, [] => some []
  | _, '\n' :: rest => skipLines false rest
  | _, '\r' :: '\n' :: rest => skipLines false rest
  | true, c :: rest => if isPlain c then skipLines true rest else none
  | false, c :: rest =>
    if c == '#' then skipLines true rest
    else if isBlank c then skipLines false rest
    else some (c :: rest)

/-- Skips the rest of a line, which must be blank or a comment, and the blank lines after it. -/
def endLine (text : List Char) : Option (List Char) :=
  let rest := text.dropWhile isBlank
  if rest = [] ∨ rest.head? = some '#' ∨ (stripLineEnd? rest).isSome then skipLines false rest
  else none

/-- Characters of names without quotes. -/
def isNameChar (c : Char) : Bool := c.isAlphanum || c == '_' || c == '-'

/-- A name without dots, quoted or not. -/
def readName (text : List Char) : Option (String × List Char) :=
  match text with
  | '\x22' :: rest => readLine '\x22' (rest.length + 1) [] rest
  | '\x27' :: rest => readLine '\x27' (rest.length + 1) [] rest
  | _ =>
    let name := text.takeWhile isNameChar
    if name = [] then none else some (String.ofList name, text.drop name.length)

/-- A dotted name and what follows the blanks after it. -/
def readPath : (fuel : Nat) → List Char → Option (List String × List Char)
  | 0, _ => none
  | fuel + 1, text => do
    let (name, rest) ← readName (text.dropWhile isBlank)
    match rest.dropWhile isBlank with
    | '.' :: rest =>
      let (names, rest) ← readPath fuel rest
      return (name :: names, rest)
    | rest => return ([name], rest)

/-- A dotted name and its value, by a reader of values. -/
def readEntry (value : List Char → Option (Toml × List Char)) (text : List Char) :
    Option ((List String × Toml) × List Char) := do
  let (path, rest) ← readPath (text.length + 1) text
  let (v, rest) ← value ((← Text.stripFront? ['='] rest).dropWhile isBlank)
  return ((path, v), rest)

/-- The elements of a list up to its closing bracket, by a reader of values. -/
def readElements (value : List Char → Option (Toml × List Char)) :
    (fuel : Nat) → List Char → Option (List Toml × List Char)
  | 0, _ => none
  | fuel + 1, text => do
    match ← skipLines false text with
    | ']' :: rest => return ([], rest)
    | text =>
      let (v, rest) ← value text
      match ← skipLines false rest with
      | ']' :: rest => return ([v], rest)
      | ',' :: rest =>
        let (vs, rest) ← readElements value fuel rest
        return (v :: vs, rest)
      | _ => none

/-- The entries of a table up to its closing brace, by a reader of values. -/
def readEntries (value : List Char → Option (Toml × List Char)) :
    (fuel : Nat) → Draft → List Char → Option (Draft × List Char)
  | 0, _, _ => none
  | fuel + 1, entries, text => do
    match ← skipLines false text with
    | '\x7d' :: rest => return (entries, rest)
    | text =>
      let ((path, v), rest) ← readEntry value text
      let entries ← entries.define v path .header
      match ← skipLines false rest with
      | '\x7d' :: rest => return (entries, rest)
      | ',' :: rest => readEntries value fuel entries rest
      | _ => none

/-- A value, from its first character. Lists and tables stand in each other to a depth. -/
def readValue : (depth : Nat) → List Char → Option (Toml × List Char)
  | _, '\x22' :: rest =>
    (readString '\x22' ('\x22' :: rest)).map fun (s, rest) => (.string s, rest)
  | _, '\x27' :: rest =>
    (readString '\x27' ('\x27' :: rest)).map fun (s, rest) => (.string s, rest)
  | 0, '[' :: _ => none
  | 0, '\x7b' :: _ => none
  | depth + 1, '[' :: rest =>
    (readElements (readValue depth) (rest.length + 1) rest).map fun (vs, rest) => (.array vs, rest)
  | depth + 1, '\x7b' :: rest =>
    (readEntries (readValue depth) (rest.length + 1) [] rest).map fun (entries, rest) =>
      (.table (finishEntries entries), rest)
  | _, text => readWord text

/-- How deep lists and tables may stand in each other. -/
def greatestDepth : Nat := 80

/-- Reads the lines of a document; the entries of a line go to the table of the last header. -/
def readDocument : (fuel : Nat) → (header : List String) → Draft → List Char → Option Draft
  | 0, _, _, _ => none
  | fuel + 1, header, root, text => do
    match ← skipLines false text with
    | [] => return root
    | '[' :: '[' :: rest =>
      let (header, rest) ← readPath (rest.length + 1) rest
      let rest ← endLine (← Text.stripFront? [']', ']'] rest)
      readDocument fuel header (← root.openElement header) rest
    | '[' :: rest =>
      let (header, rest) ← readPath (rest.length + 1) rest
      let rest ← endLine (← Text.stripFront? [']'] rest)
      readDocument fuel header (← root.openTable header) rest
    | text =>
      let ((path, v), rest) ← readEntry (readValue greatestDepth) text
      let rest ← endLine rest
      readDocument fuel header (← root.defineIn header v path) rest

/-- The table of a document. A byte order mark may start it. -/
def read? (text : String) : Option (List (String × Toml)) :=
  let text :=
    match text.toList with
    | '\ufeff' :: rest => rest
    | text => text
  (readDocument (text.length + 1) [] [] text).map finishEntries

end Toml
end DownloadQuery
