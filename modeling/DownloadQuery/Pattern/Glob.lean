import DownloadQuery.Pattern.Regex

/-!
# Globs

Patterns for whole texts: `*` stands for any text, `?` for any byte, a class in brackets for any of
its bytes. Two stars between slashes, or between a slash and an end of the pattern, stand for any
number of directories. Braces stand for themselves, and so does an opening bracket that is never
closed.

Texts are matched byte by byte in their UTF-8 form.
-/

namespace DownloadQuery

/-- A part of a glob. -/
inductive GlobPart where
  | literal (c : Char)
  | anyByte
  | anyText
  /-- Any of the ranges, or none of them. -/
  | byteClass (negated : Bool) (ranges : List (Char × Char))
  /-- Two stars at the start: nothing, or directories and their slash. -/
  | leadingDirs
  /-- Two stars between slashes: one slash, or directories between two. -/
  | innerDirs
  /-- Two stars after the last slash: anything below it. -/
  | trailingDirs
  deriving DecidableEq, Repr

abbrev Glob := List GlobPart

/-- Why a text is no glob. -/
inductive GlobFault where
  | unclosedClass
  | invalidRange (low high : Char)
  deriving DecidableEq, Repr

namespace GlobFault

def message : GlobFault → String
  | .unclosedClass => "unclosed character class; missing ']'"
  | .invalidRange low high => s!"invalid range; '{low}' > '{high}'"

end GlobFault

namespace Glob

/-- Where the class ends that opens before the text: its characters with the closing bracket, and the
rest. An exclamation mark and a bracket right at the start do not close it. -/
def closeClass? (text : List Char) : Option (List Char × List Char) :=
  let (mark, text) :=
    match text with
    | '!' :: rest => (['!'], rest)
    | _ => ([], text)
  let (first, text) :=
    match text with
    | ']' :: rest => ([']'], rest)
    | _ => ([], text)
  let members := text.takeWhile (· != ']')
  match text.drop members.length with
  | [] => none
  | _ :: rest => some (mark ++ first ++ members ++ [']'], rest)

/-- Writes braces and unclosed brackets as classes of their own; `pending` characters belong to a
class and stay as they are. -/
def escapeFrom : (pending : Nat) → List Char → List Char
  | _, [] => []
  | pending + 1, c :: rest => c :: escapeFrom pending rest
  | 0, c :: rest =>
    if c = '\x7b' ∨ c = '\x7d' then '[' :: c :: ']' :: escapeFrom 0 rest
    else if c = '[' then
      match closeClass? rest with
      | some (inside, _) => '[' :: escapeFrom inside.length rest
      | none => '[' :: '[' :: ']' :: escapeFrom 0 rest
    else c :: escapeFrom 0 rest

/-- The text of a glob with braces and unclosed brackets written as classes. -/
def escape (text : List Char) : List Char := escapeFrom 0 text

/-- What stands before the text that is left to read. -/
inductive Context where
  | start
  | middle
  /-- A class: whether it is negated, its ranges so far (last first), whether a character has been
  read, and whether a hyphen waits for the end of a range. -/
  | inClass (negated : Bool) (ranges : List (Char × Char)) (begun inRange : Bool)

/-- Whether two stars and a slash, or two stars at the end, come next. -/
def dirsFollow : List Char → Bool
  | '*' :: '*' :: [] => true
  | '*' :: '*' :: '/' :: _ => true
  | _ => false

/-- Ends the last range at a character. -/
def extendRange (ranges : List (Char × Char)) (c : Char) :
    Except GlobFault (List (Char × Char)) :=
  match ranges with
  | [] => .ok [(c, c)]
  | (low, _) :: rest => if c < low then .error (.invalidRange low c) else .ok ((low, c) :: rest)

/-- Reads the parts of a glob. Directories that follow directories add nothing. -/
def readFrom : Context → List Char → Except GlobFault Glob
  | .inClass .., [] => .error .unclosedClass
  | .inClass negated ranges begun inRange, c :: rest =>
    if c = ']' ∧ begun then
      let ranges := if inRange then ('-', '-') :: ranges else ranges
      (readFrom .middle rest).map (.byteClass negated ranges.reverse :: ·)
    else if c = '-' ∧ begun ∧ !inRange then readFrom (.inClass negated ranges true true) rest
    else if inRange then
      match extendRange ranges c with
      | .error fault => .error fault
      | .ok ranges => readFrom (.inClass negated ranges true false) rest
    else readFrom (.inClass negated ((c, c) :: ranges) true false) rest
  | _, [] => .ok []
  | _, '[' :: '!' :: rest => readFrom (.inClass true [] false false) rest
  | _, '[' :: '^' :: rest => readFrom (.inClass true [] false false) rest
  | _, '[' :: rest => readFrom (.inClass false [] false false) rest
  | .start, '*' :: '*' :: [] => .ok [.leadingDirs]
  | .start, '*' :: '*' :: '/' :: rest =>
    if dirsFollow rest then readFrom .start rest
    else (readFrom .middle rest).map (.leadingDirs :: ·)
  | _, '/' :: '*' :: '*' :: [] => .ok [.trailingDirs]
  | _, '/' :: '*' :: '*' :: '/' :: rest =>
    if dirsFollow rest then readFrom .middle ('/' :: rest)
    else (readFrom .middle rest).map (.innerDirs :: ·)
  | _, '*' :: rest => (readFrom .middle rest).map (.anyText :: ·)
  | _, '?' :: rest => (readFrom .middle rest).map (.anyByte :: ·)
  | _, c :: rest => (readFrom .middle rest).map (.literal c :: ·)
termination_by structural _ text => text

/-- The glob a text denotes. -/
def read (text : List Char) : Except GlobFault Glob := readFrom .start text

/-- The bytes of a character in UTF-8. -/
def bytesOfChar (c : Char) : List Nat := (String.utf8EncodeChar c).map UInt8.toNat

/-- The bytes of a text in UTF-8. -/
def bytes (text : List Char) : List Nat := text.flatMap bytesOfChar

def anyByte : Regex := .set (.compl .empty)

def anyBytes : Regex := .repeated anyByte 0 none

/-- One byte; letter case does not count. -/
def byte (b : Nat) : Regex := .set (.asciiFolded (.codes [b]))

def slash : Regex := byte 0x2F

/-- The byte ranges of a range of characters. Of longer characters each byte counts alone, but for
the last of the lower and the first of the upper end, which make a range. -/
def byteRanges (low high : Char) : List (Nat × Nat) :=
  if low = high then (bytesOfChar low).map fun b => (b, b)
  else
    let lowBytes := bytesOfChar low
    let highBytes := bytesOfChar high
    (lowBytes.dropLast.map fun b => (b, b)) ++ [(lowBytes.getLastD 0, highBytes.headD 0)] ++
      highBytes.tail.map fun b => (b, b)

/-- The bytes of a class; letter case does not count. -/
def classSet (negated : Bool) (ranges : List (Char × Char)) : CodeSet :=
  let members := CodeSet.asciiFolded
    (.ranges (ranges.flatMap fun (low, high) => byteRanges low high))
  if negated then .compl members else members

/-- The expression over bytes of a part. -/
def partRegex : GlobPart → Regex
  | .literal c => Regex.ofList ((bytesOfChar c).map byte)
  | .anyByte => anyByte
  | .anyText => anyBytes
  | .byteClass negated ranges => .set (classSet negated ranges)
  | .leadingDirs => .alt (.repeated slash 0 (some 1)) (.seq anyBytes slash)
  | .innerDirs => .alt slash (Regex.ofList [slash, anyBytes, slash])
  | .trailingDirs => .seq slash anyBytes

/-- The expression over bytes of a glob. Directories alone stand for any text. -/
def regex (g : Glob) : Regex :=
  if g = [.leadingDirs] then anyBytes else Regex.ofList (g.map partRegex)

/-- Whether the glob matches a whole text. -/
def isMatch (g : Glob) (text : List Char) : Bool := (regex g).matchesWhole (bytes text)

end Glob
end DownloadQuery
